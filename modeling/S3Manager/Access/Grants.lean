import S3Manager.Access.PrefixCover

/-! The objects that a role and a user are granted, and that the gate lets through no
others: a path without outer blanks that it accepts is granted, and so is what lies below it. -/

set_option autoImplicit false

namespace S3Manager.Access

open Python Utils Library

/-- What an entry of the config lets through: a bucket of its list, and a key under one of its
prefixes. -/
structure EntryGrants (config entry : Dict) (bucket key : Str) : Prop where
  bucketAllowed : ∃ allowed, roleAllowedBuckets entry config = .ok allowed ∧
    ∀ list, allowed = some list → .str bucket ∈ list
  keyCovered : ∃ prefixes, roleAllowedPrefixes entry = .ok prefixes ∧
    ∀ list, prefixes = some list → Covered list key

/-- What a validated role lets through. A role without an entry restricts nothing. -/
def RoleGrants (config : Dict) (validated : Option Str) (bucket key : Str) : Prop :=
  ∃ found, findRole config validated = .ok found ∧
    ∀ entry, found = some entry → EntryGrants config entry bucket key

/-- What a user reaches through any of the roles that the user may name. -/
def UserGrants (config : Dict) (user : UserDict) (bucket key : Str) : Prop :=
  ∃ role validated, validateRoleAccess role user = .ok validated ∧
    RoleGrants config validated bucket key

section Gate

variable {config : Dict} {user : UserDict} {role validated : Option Str} {bucket path : Str}

theorem under_of_trimmed {prefixes : List Json} (accepted : GateAccepts prefixes path)
    (trimmed : strip path = path) : ∃ raw, .str raw ∈ prefixes ∧ strip raw ≠ [] ∧
      SegmentUnder '/' (allowedRoot raw) (rstripSlash path) := by
  obtain ⟨-, -, -, under⟩ := accepted.shape
  rwa [trimmed] at under

/-- The entry of an accepted path grants every key that is covered when the path is. -/
theorem granted_of_gate
    (accepted : validateStorageAccess config role bucket user path = .ok validated) {key : Str}
    (covered : ∀ prefixes, GateAccepts prefixes path → Covered prefixes key) :
    UserGrants config user bucket key := by
  obtain ⟨checked, found, searched, grants⟩ := validateStorageAccess_ok_iff.mp accepted
  refine ⟨role, validated, checked, found, searched, fun entry same => ?_⟩
  obtain ⟨bucketAllowed, prefixes, read, keyAllowed⟩ := grants entry same
  exact ⟨bucketAllowed, prefixes, read, fun list here => covered list (keyAllowed list here)⟩

theorem granted_key
    (accepted : validateStorageAccess config role bucket user path = .ok validated)
    (trimmed : strip path = path) : UserGrants config user bucket path := by
  obtain ⟨left, right⟩ := (trimBy_eq_self_iff isSpace).mp trimmed
  exact granted_of_gate accepted fun _ here => covered_of_trimmed here .same left right

/-- What an accepted folder contains. -/
theorem granted_inside
    (accepted : validateStorageAccess config role bucket user path = .ok validated)
    (trimmed : strip path = path) (rest : Str) :
    UserGrants config user bucket (rstripSlash path ++ '/' :: rest) :=
  granted_of_gate accepted fun _ here => covered_of_descend rest (under_of_trimmed here trimmed)

/-- What a listed folder contains, whatever path it was resolved from. -/
theorem granted_listed {unicode : Unicode} {listing : ListEntry}
    (prepared : prepareListPath unicode config role bucket user path = .ok listing)
    (real : listing.virtualDirectories = none) (trimmed : strip path = path) {key : Str}
    (below : listing.effectivePath = [] ∨ ∃ rest, key = listing.effectivePath ++ '/' :: rest) :
    UserGrants config user bucket key := by
  obtain ⟨checked, found, searched, grants⟩ := prepareListPath_grants prepared real
  refine ⟨role, listing.validatedRole, checked, found, searched, fun entry same => ?_⟩
  have check := grants entry same
  obtain ⟨prefixes, read, keyAllowed⟩ := check.keyAllowed
  refine ⟨check.bucketAllowed, prefixes, read, ?_⟩
  rintro list rfl
  have restricted : RestrictedTo config user role list :=
    ⟨listing.validatedRole, entry, checked, same ▸ searched, read⟩
  obtain ⟨accepted, origin⟩ := prepareListPath_restricted restricted prepared real
  obtain empty | ⟨rest, rfl⟩ := below
  · exact absurd empty accepted.shape.1
  · obtain ⟨same, -⟩ | ⟨-, single⟩ := origin
    · obtain ⟨left, right⟩ := (trimBy_eq_self_iff isSpace).mp trimmed
      rw [same] at accepted ⊢
      exact covered_of_trimmed accepted (.below rest) left right
    · exact covered_substituted single accepted rest

/-- A path without outer blanks is resolved to one without them. -/
theorem effective_trimmed {unicode : Unicode} {listing : ListEntry}
    (prepared : prepareListPath unicode config role bucket user path = .ok listing)
    (real : listing.virtualDirectories = none) (trimmed : strip path = path) :
    strip listing.effectivePath = listing.effectivePath := by
  obtain ⟨validated, checked, rest⟩ := bind_eq_ok_iff.mp prepared
  obtain ⟨found, searched, rest⟩ := bind_eq_ok_iff.mp rest
  cases found with
  | none =>
      obtain rfl := Except.ok.inj rest
      exact trimmed
  | some entry =>
      obtain ⟨allowed, -, rest⟩ := bind_eq_ok_iff.mp rest
      obtain ⟨_, -, rest⟩ := bind_eq_ok_iff.mp rest
      obtain ⟨prefixes, read, rest⟩ := bind_eq_ok_iff.mp rest
      cases prefixes with
      | none =>
          obtain rfl := Except.ok.inj rest
          exact trimmed
      | some list =>
          obtain ⟨accepted, ⟨same, -⟩ | ⟨-, single⟩⟩ :=
            prepareListPath_restricted ⟨validated, entry, checked, searched, read⟩ prepared real
          · rw [same]
            exact trimmed
          · exact strip_of_substituted single accepted

end Gate

end S3Manager.Access
