import S3Manager.Python.Json
import S3Manager.Utils.Sanitize

/-! Users, role entries of the configuration, and what an entry grants:
`validate_role_access`, `role_allowed_buckets` and `role_allowed_prefixes`. -/

set_option autoImplicit false

namespace S3Manager.Access

open Python

/-- The fields of `user_dict` that access decisions read. -/
structure UserDict where
  isAdmin : Bool
  allowedRoles : List Str
  defaultRole : Option Str

/-- `f"{name}"` for an optional role name. -/
def showName : Option Str → Str
  | some name => name
  | none => lit "None"

def computeDefaultRole (explicitDefault : Option Str) (allowedRoles : List Str) : Option Str :=
  match explicitDefault with
  | some explicit =>
      if !explicit.isEmpty && allowedRoles.contains explicit then some explicit
      else allowedRoles.head?
  | none => allowedRoles.head?

def validateRoleAccess (roleName : Option Str) (user : UserDict) : Result (Option Str) :=
  if user.isAdmin then .ok roleName
  else
    let resolved := match roleName with
      | some name => some name
      | none => computeDefaultRole user.defaultRole user.allowedRoles
    match resolved with
    | none => raise .permissionError (lit "Access denied: You don't have any allowed roles")
    | some name =>
        if user.allowedRoles.contains name then .ok (some name)
        else
          raise .permissionError
            (lit "Access denied: You don't have permission to use role '" ++ name ++ ['\''])

/-- `config.get("roles", [])` -/
def configRoles (config : Dict) : Json :=
  dictGetD config "roles" (.arr [])

/-- `value == name` for what `r.get("name")` returned. -/
def nameMatches (value : Json) (name : Option Str) : Bool :=
  match value, name with
  | .str s, some n => s == n
  | .null, none => true
  | _, _ => false

/-- `next((r for r in roles if r.get("name") == name), None)` over a list. -/
def nextRole (name : Option Str) : List Json → Result (Option Dict)
  | [] => .ok none
  | .obj role :: rest =>
      if nameMatches (dictGet role "name") name then .ok (some role) else nextRole name rest
  | _ :: _ => raise .attributeError (lit "object has no attribute 'get'")

/-- The lookup every gate makes in the configured roles. -/
def findRole (config : Dict) (name : Option Str) : Result (Option Dict) := do
  let roles ← iterate (configRoles config)
  nextRole name roles

/-- The `shared_bucket` fallback of `role_allowed_buckets`. -/
def sharedBuckets (config : Dict) : Option (List Json) :=
  match dictGet config "shared_bucket" with
  | .str shared => if (strip shared).isEmpty then none else some [.str (strip shared)]
  | _ => none

def roleAllowedBuckets (role config : Dict) : Result (Option (List Json)) :=
  match dictGet role "allowed_buckets" with
  | .null => .ok (sharedBuckets config)
  | .arr [] => .ok (sharedBuckets config)
  | .arr allowed => .ok (some allowed)
  | _ => raise .valueError (lit "allowed_buckets must be a list")

def roleAllowedPrefixes (role : Dict) : Result (Option (List Json)) :=
  match dictGet role "allowed_prefixes" with
  | .null => .ok none
  | .arr prefixes => .ok (some prefixes)
  | _ => raise .permissionError (lit "allowed_prefixes must be a list")

section Laws

theorem nameMatches_some_iff {value : Json} {name : Str} :
    nameMatches value (some name) = true ↔ value = .str name := by
  cases value <;> simp [nameMatches]

theorem nextRole_name {name : Option Str} {roles : List Json} {role : Dict}
    (found : nextRole name roles = .ok (some role)) :
    nameMatches (dictGet role "name") name = true := by
  induction roles with
  | nil => simp [nextRole] at found
  | cons entry rest ih =>
      cases entry with
      | obj fields =>
          by_cases here : nameMatches (dictGet fields "name") name = true
          · simp only [nextRole, here, if_true, Except.ok.injEq, Option.some.injEq] at found
            exact found ▸ here
          · simp only [nextRole, here] at found
            exact ih found
      | null | bool | int | float | str | arr => simp [nextRole, raise] at found

theorem findRole_name {config role : Dict} {name : Option Str}
    (found : findRole config name = .ok (some role)) :
    nameMatches (dictGet role "name") name = true := by
  obtain ⟨roles, _, searched⟩ := bind_eq_ok_iff.mp found
  exact nextRole_name searched

theorem validateRoleAccess_allowed {roleName validated : Option Str} {user : UserDict}
    (accepted : validateRoleAccess roleName user = .ok validated) (ordinary : user.isAdmin = false) :
    ∃ name, validated = some name ∧ name ∈ user.allowedRoles := by
  simp only [validateRoleAccess, ordinary, Bool.false_eq_true, if_false] at accepted
  split at accepted
  · simp [raise] at accepted
  · next name _ =>
      split at accepted
      · next member =>
          simp only [Except.ok.injEq] at accepted
          exact ⟨name, accepted.symm, by simpa using member⟩
      · simp [raise] at accepted

theorem validateRoleAccess_admin {roleName : Option Str} {user : UserDict}
    (admin : user.isAdmin = true) : validateRoleAccess roleName user = .ok roleName := by
  simp [validateRoleAccess, admin]

/-- Validation only ever replaces an omitted role. -/
theorem validateRoleAccess_named {name : Str} {validated : Option Str} {user : UserDict}
    (accepted : validateRoleAccess (some name) user = .ok validated) : validated = some name := by
  simp only [validateRoleAccess] at accepted
  split at accepted
  · exact (Except.ok.inj accepted).symm
  · split at accepted
    · exact (Except.ok.inj accepted).symm
    · simp [raise] at accepted

theorem validateRoleAccess_validated {roleName validated : Option Str} {user : UserDict}
    (accepted : validateRoleAccess roleName user = .ok validated) :
    validateRoleAccess validated user = .ok validated := by
  by_cases admin : user.isAdmin = true
  · exact validateRoleAccess_admin admin
  · have ordinary : user.isAdmin = false := by simpa using admin
    obtain ⟨name, rfl, member⟩ := validateRoleAccess_allowed accepted ordinary
    simp [validateRoleAccess, ordinary, member]

end Laws

end S3Manager.Access
