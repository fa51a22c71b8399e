import S3Manager.Clients.Resolve

/-! Which entry a request is checked against, signed for and shown, when the
role argument is present, omitted or empty. -/

set_option autoImplicit false

namespace S3Manager.Access

open Python Clients

/-- The role a request asks for: its argument, or the default of a caller who
is no admin. -/
def requestedRole (user : UserDict) (role : Option Str) : Option Str :=
  match role with
  | some name => some name
  | none => if user.isAdmin then none else computeDefaultRole user.defaultRole user.allowedRoles

theorem validateRoleAccess_requested {user : UserDict} {role validated : Option Str}
    (accepted : validateRoleAccess role user = .ok validated) :
    validated = requestedRole user role := by
  cases role with
  | some name => exact validateRoleAccess_named accepted
  | none =>
      by_cases admin : user.isAdmin = true
      · rw [validateRoleAccess_admin admin] at accepted
        simpa [requestedRole, admin] using (Except.ok.inj accepted).symm
      · have ordinary : user.isAdmin = false := by simpa using admin
        simp only [validateRoleAccess, requestedRole, ordinary, Bool.false_eq_true, if_false]
          at accepted ⊢
        split at accepted
        · simp [raise] at accepted
        · next name computed =>
            split at accepted
            · rw [computed]
              exact (Except.ok.inj accepted).symm
            · simp [raise] at accepted

/-- One request: the entry that signs it is the entry the gate checked and the
entry whose buckets are shown, and naming that entry passes the gate as well. -/
def EntriesAgree (config : Dict) (user : UserDict) (bucket key : Str) (validated : Option Str)
    (signing : Dict) : Prop :=
  findRole config validated = .ok (some signing) ∧
    shownRole config validated = .ok (some signing) ∧
    ∀ name, dictGet signing "name" = .str name →
      validateStorageAccess config (some name) bucket user key = .ok (some name)

/-- When the validated role is a name, repeating the request under it is the same request. -/
theorem validateStorageAccess_again {config : Dict} {role : Option Str} {name bucket key : Str}
    {user : UserDict}
    (accepted : validateStorageAccess config role bucket user key = .ok (some name)) :
    validateStorageAccess config (some name) bucket user key = .ok (some name) := by
  obtain ⟨checked, granted⟩ := validateStorageAccess_ok_iff.mp accepted
  exact validateStorageAccess_ok_iff.mpr ⟨validateRoleAccess_validated checked, granted⟩

/-- An accepted request is signed, checked and shown for one entry exactly when
it asks for a role by a nonempty name, or the first configured entry has the
very name it asks for. -/
theorem entriesAgree_iff (config : Dict) (user : UserDict) (role validated : Option Str)
    (bucket key : Str) (signing : Dict)
    (accepted : validateStorageAccess config role bucket user key = .ok validated)
    (signed : resolveClientRole config validated = .ok signing) :
    EntriesAgree config user bucket key validated signing ↔
      namePresent (requestedRole user role) = true ∨
        firstEntryNamed config (requestedRole user role) = true := by
  have same := validateRoleAccess_requested (validateStorageAccess_ok_iff.mp accepted).1
  rw [← same]
  cases present : namePresent validated with
  | true =>
      have found := (resolveClientRole_named present).mp signed
      refine iff_of_true ⟨found, shownRole_named present found, ?_⟩ (.inl rfl)
      intro name named
      cases validated with
      | none => simp [namePresent] at present
      | some n =>
          have entryName := nameMatches_some_iff.mp (findRole_name found)
          obtain rfl : n = name := by simpa [entryName] using named
          exact validateStorageAccess_again accepted
  | false =>
      simp only [Bool.false_eq_true, false_or]
      simp only [resolveClientRole, present, Bool.false_eq_true, if_false] at signed
      constructor
      · rintro ⟨found, shown, -⟩
        have named := findRole_name found
        simp only [shownRole, present, Bool.false_eq_true, if_false] at shown
        obtain ⟨first, taken, rest⟩ := bind_eq_ok_iff.mp shown
        cases live : first.truthy with
        | false => simp [live] at rest
        | true =>
            simp only [live, if_true] at rest
            cases first with
            | obj fields =>
                obtain rfl : fields = signing := by simpa using rest
                cases fields with
                | nil => simp [Json.truthy] at live
                | cons field others =>
                    obtain ⟨tail, shape⟩ := firstRole_obj taken
                    simpa only [firstEntryNamed, shape] using named
            | null | bool | int | float | str | arr => simp [raise] at rest
      · intro first
        obtain ⟨field, rest, others, shape, named⟩ := firstEntryNamed_spec first
        obtain rfl : field :: rest = signing := by
          simpa only [shape, firstRole_arr, result_bind_ok, truthy_nonempty, if_true,
            Except.ok.injEq] using signed
        have found := findRole_of_first shape named
        refine ⟨found, by
          simp only [shownRole, present, shape, firstRole_arr, result_bind_ok, truthy_nonempty,
            Bool.false_eq_true, if_false, if_true], ?_⟩
        intro name entryName
        have sameName : validated = some name := by
          cases validated with
          | none => simp [entryName, nameMatches] at named
          | some n =>
              obtain rfl : name = n := by
                simpa [entryName] using nameMatches_some_iff.mp named
              rfl
        subst sameName
        exact validateStorageAccess_again accepted

/-- One role entry that is limited to its own bucket. -/
def teamEntry : Dict :=
  [(lit "name", .str (lit "team")), (lit "type", .str (lit "default")),
    (lit "allowed_buckets", .arr [.str (lit "team-data")])]

def teamConfig : Dict :=
  [(lit "roles", .arr [.obj teamEntry])]

def admin : UserDict where
  isAdmin := true
  allowedRoles := [lit "team"]
  defaultRole := none

/-- Naming the role agrees, as an instance with both hypotheses met. -/
theorem entriesAgree_team :
    EntriesAgree teamConfig admin (lit "team-data") (lit "a.txt") (some (lit "team")) teamEntry ↔
      namePresent (requestedRole admin (some (lit "team"))) = true ∨
        firstEntryNamed teamConfig (requestedRole admin (some (lit "team"))) = true :=
  entriesAgree_iff teamConfig admin (some (lit "team")) (some (lit "team")) (lit "team-data")
    (lit "a.txt") teamEntry rfl rfl

/-- An admin who leaves the role out is signed for the first entry, although no
entry was checked: the same bucket is refused as soon as the entry is named. -/
theorem omitted_role_not_checked :
    (¬ ∀ (config : Dict) (user : UserDict) (role validated : Option Str) (bucket key : Str)
        (signing : Dict),
        validateStorageAccess config role bucket user key = .ok validated →
        resolveClientRole config validated = .ok signing →
        EntriesAgree config user bucket key validated signing) ∧
      (∀ name, validateStorageAccess teamConfig (some (lit "team")) (lit "other") admin
        (lit "a.txt") ≠ .ok name) := by
  have unnamed : findRole teamConfig none = .ok none := rfl
  constructor
  · intro agrees
    have checked := (agrees teamConfig admin none none (lit "other") (lit "a.txt") teamEntry
      rfl rfl).1
    rw [unnamed] at checked
    simp at checked
  · intro name accepted
    have refused : validateStorageAccess teamConfig (some (lit "team")) (lit "other") admin
        (lit "a.txt") = raise .permissionError (lit "bucket '" ++ lit "other" ++
          lit "' not in allowed_buckets for role '" ++ lit "team" ++ ['\'']) := rfl
    rw [refused] at accepted
    simp [raise] at accepted

end S3Manager.Access
