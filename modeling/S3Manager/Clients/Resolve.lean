import S3Manager.Access.Gate

/-! How `get_s3_client` and `list_buckets_for_role` turn a role argument into a
role entry. Each has its own fallback for a missing name. -/

set_option autoImplicit false

namespace S3Manager.Clients

open Python Access

/-- `if role_name:` for an optional name. -/
def namePresent : Option Str → Bool
  | some name => !name.isEmpty
  | none => false

/-- `roles[0] if roles else None` -/
def firstRole (roles : Json) : Result Json :=
  match roles with
  | .arr (entry :: _) => .ok entry
  | .str (c :: _) => .ok (.str [c])
  | other =>
      if other.truthy then raise .typeError (lit "object is not subscriptable") else .ok .null

/-- The entry `get_s3_client` builds a client from when the config has none. -/
def fallbackRole : Dict :=
  [(lit "name", .str (lit "Default")), (lit "type", .str (lit "default")),
    (lit "description", .str (lit "Use default AWS credentials"))]

/-- The role resolution of `get_s3_client`. -/
def resolveClientRole (config : Dict) (roleName : Option Str) : Result Dict :=
  if namePresent roleName then do
    match ← findRole config roleName with
    | some (field :: rest) => .ok (field :: rest)
    | _ =>
        raise .roleNotFoundError
          (lit "Role '" ++ showName roleName ++ lit "' not found in configuration")
  else do
    let role ← firstRole (configRoles config)
    if role.truthy then
      match role with
      | .obj fields => .ok fields
      | _ => raise .attributeError (lit "object has no attribute 'get'")
    else .ok fallbackRole

/-- The entry whose buckets `list_buckets_for_role` shows for a validated role;
`none` sends it to the S3 bucket list instead. -/
def shownRole (config : Dict) (validated : Option Str) : Result (Option Dict) := do
  if namePresent validated then
    match ← findRole config validated with
    | some (field :: rest) => .ok (some (field :: rest))
    | _ => .ok none
  else
    let role ← firstRole (configRoles config)
    if role.truthy then
      match role with
      | .obj fields => .ok (some fields)
      | _ => raise .attributeError (lit "object has no attribute 'get'")
    else .ok none

/-- The first entry of the config is a nonempty entry with this very name. -/
def firstEntryNamed (config : Dict) (name : Option Str) : Bool :=
  match configRoles config with
  | .arr (.obj (field :: rest) :: _) => nameMatches (dictGet (field :: rest) "name") name
  | _ => false

section Laws

theorem findRole_nonempty {config role : Dict} {name : Option Str} (present : namePresent name)
    (found : findRole config name = .ok (some role)) : ∃ field rest, role = field :: rest := by
  cases role with
  | cons field rest => exact ⟨field, rest, rfl⟩
  | nil =>
      have named := findRole_name found
      cases name with
      | none => simp [namePresent] at present
      | some n => simp [dictGet, nameMatches] at named

theorem resolveClientRole_named {config role : Dict} {name : Option Str}
    (present : namePresent name) :
    resolveClientRole config name = .ok role ↔ findRole config name = .ok (some role) := by
  simp only [resolveClientRole, present, if_true]
  cases found : findRole config name with
  | error exc => simp
  | ok entry =>
      cases entry with
      | none => simp [raise]
      | some fields =>
          obtain ⟨field, rest, rfl⟩ := findRole_nonempty present found
          simp

theorem shownRole_named {config role : Dict} {name : Option Str} (present : namePresent name)
    (found : findRole config name = .ok (some role)) :
    shownRole config name = .ok (some role) := by
  obtain ⟨field, rest, rfl⟩ := findRole_nonempty present found
  simp [shownRole, present, found]

theorem firstEntryNamed_spec {config : Dict} {name : Option Str}
    (first : firstEntryNamed config name = true) :
    ∃ field rest others, configRoles config = .arr (.obj (field :: rest) :: others) ∧
      nameMatches (dictGet (field :: rest) "name") name = true := by
  unfold firstEntryNamed at first
  split at first
  · next field rest others shape => exact ⟨field, rest, others, shape, first⟩
  · simp at first

theorem firstRole_arr (entry : Json) (others : List Json) :
    firstRole (.arr (entry :: others)) = .ok entry := rfl

theorem truthy_nonempty (field : Str × Json) (rest : Dict) :
    (Json.obj (field :: rest)).truthy = true := rfl

theorem firstRole_obj {config fields : Dict} (first : firstRole (configRoles config) = .ok (.obj fields)) :
    ∃ others, configRoles config = .arr (.obj fields :: others) := by
  generalize configRoles config = roles at first ⊢
  unfold firstRole at first
  split at first
  · next entry others =>
      obtain rfl : entry = .obj fields := by simpa using first
      exact ⟨others, rfl⟩
  · simp at first
  · split at first <;> simp [raise] at first

theorem findRole_of_first {config : Dict} {name : Option Str} {entry : Dict} {others : List Json}
    (shape : configRoles config = .arr (.obj entry :: others))
    (named : nameMatches (dictGet entry "name") name = true) :
    findRole config name = .ok (some entry) := by
  simp [findRole, shape, iterate, nextRole, named]

end Laws

end S3Manager.Clients
