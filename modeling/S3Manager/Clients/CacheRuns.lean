import S3Manager.Clients.Cache
import S3Manager.Library.Transition

/-! Runs of the client cache under one fixed config: which entry the client of
a slot was built from, and when the next call on that slot may still use it. -/

set_option autoImplicit false

namespace S3Manager.Clients

open Python Access Library

inductive CacheCall where
  | get (roleName : Option Str) (aws : Result Unit)
  | invalidate (roleName : Option Str)
  | clear

section Runs

variable {env : BuildEnv} (config : Dict)

def afterCall (cache : ClientCache env) : CacheCall → ClientCache env
  | .get roleName aws => (getS3Client config roleName aws cache).2
  | .invalidate roleName => invalidateS3Client roleName cache
  | .clear => clearS3ClientsCache cache

def CacheStep (cache : ClientCache env) (call : CacheCall) (next : ClientCache env) : Prop :=
  next = afterCall config cache call

/-- A returned client was built from the entry its argument resolves to. -/
def ServedRight (cache : ClientCache env) : CacheCall → Prop
  | .get roleName aws =>
      ∀ client, (getS3Client config roleName aws cache).1 = .ok client →
        resolveClientRole config roleName = .ok client.builtFrom
  | _ => True

/-- Arguments that resolve to different entries have different slots. -/
def SlotsNeverShared : Prop :=
  ∀ (left right : Option Str) (leftEntry rightEntry : Dict),
    resolveClientRole config left = .ok leftEntry →
    resolveClientRole config right = .ok rightEntry →
    leftEntry ≠ rightEntry → cacheKey left ≠ cacheKey right

/-- A slot that is hit was filled by a call of the same kind, both naming a role
or both naming none; otherwise the first entry has to be the one named `default`. -/
def SameKind (cache : ClientCache env) : CacheCall → Prop
  | .get roleName _ =>
      ∀ slot, Assoc.get? cache (cacheKey roleName) = some slot →
        namePresent roleName = namePresent slot.argument ∨
          firstEntryNamed config (some (lit "default")) = true
  | _ => True

/-- No entry is named `default`, unless it is the first one. -/
def DefaultComesFirst : Prop :=
  firstEntryNamed config (some (lit "default")) = true ∨
    ∀ entry, findRole config (some (lit "default")) ≠ .ok (some entry)

/-- A list of entries with pairwise different names. -/
def DistinctNames : Prop :=
  ∃ entries : List Dict, configRoles config = .arr (entries.map .obj) ∧
    (entries.map fun entry => dictGet entry "name").Nodup

/-- Each slot holds the client of the entry that its own argument resolves to. -/
def SlotsHonest (cache : ClientCache env) : Prop :=
  EverySlot (fun key slot => cacheKey slot.argument = key ∧
    resolveClientRole config slot.argument = .ok slot.client.builtFrom) cache

end Runs

section Resolution

variable {config : Dict}

theorem present_default : namePresent (some (lit "default")) = true := by decide

theorem resolveClientRole_absent {left right : Option Str} (leftAbsent : namePresent left = false)
    (rightAbsent : namePresent right = false) :
    resolveClientRole config left = resolveClientRole config right := by
  simp only [resolveClientRole, leftAbsent, rightAbsent, Bool.false_eq_true, if_false]

theorem resolveClientRole_sameKind {left right : Option Str} (sameKey : cacheKey left = cacheKey right)
    (sameKind : namePresent left = namePresent right) :
    resolveClientRole config left = resolveClientRole config right := by
  cases present : namePresent left with
  | true =>
      have same : left = right := by
        rw [cacheKey_present present, sameKey, ← cacheKey_present (sameKind ▸ present)]
      rw [same]
  | false => exact resolveClientRole_absent present (sameKind ▸ present)

theorem resolveClientRole_none_of_first {entry : Dict} {others : List Json}
    (shape : configRoles config = .arr (.obj entry :: others)) :
    resolveClientRole config none = .ok (if entry = [] then fallbackRole else entry) := by
  simp only [resolveClientRole, namePresent, Bool.false_eq_true, if_false, shape, firstRole_arr,
    result_bind_ok]
  cases entry with
  | nil => rfl
  | cons field rest => simp only [truthy_nonempty, if_true, reduceCtorEq, if_false]

/-- With an entry named `default` in first place, leaving the role out is naming it. -/
theorem resolveClientRole_default_of_first
    (first : firstEntryNamed config (some (lit "default")) = true) :
    resolveClientRole config none = resolveClientRole config (some (lit "default")) := by
  obtain ⟨field, rest, others, shape, named⟩ := firstEntryNamed_spec first
  have found := findRole_of_first shape named
  rw [(resolveClientRole_named present_default).mpr found, resolveClientRole_none_of_first shape]
  simp

theorem first_of_resolveClientRole_default {entry : Dict}
    (omitted : resolveClientRole config none = .ok entry)
    (named : resolveClientRole config (some (lit "default")) = .ok entry) :
    firstEntryNamed config (some (lit "default")) = true := by
  have found := (resolveClientRole_named present_default).mp named
  have entryName := findRole_name found
  simp only [resolveClientRole, namePresent, Bool.false_eq_true, if_false] at omitted
  obtain ⟨first, taken, rest⟩ := bind_eq_ok_iff.mp omitted
  cases live : first.truthy with
  | false =>
      -- The fallback entry is called `Default`, with a capital letter.
      obtain rfl : fallbackRole = entry := by simpa [live] using rest
      exact absurd entryName (by decide)
  | true =>
      simp only [live, if_true] at rest
      cases first with
      | obj fields =>
          obtain rfl : fields = entry := by simpa using rest
          obtain ⟨others, shape⟩ := firstRole_obj taken
          cases fields with
          | nil => simp [Json.truthy] at live
          | cons field tail => simpa only [firstEntryNamed, shape] using entryName
      | null | bool | int | float | str | arr => simp [raise] at rest

theorem resolveClientRole_none_of_found {name : Option Str} {entry : Dict}
    (found : findRole config name = .ok (some entry)) :
    ∃ first, resolveClientRole config none = .ok first := by
  obtain ⟨roles, iterated, searched⟩ := bind_eq_ok_iff.mp found
  cases roles with
  | nil => simp [nextRole] at searched
  | cons head others =>
      cases head with
      | obj fields =>
          cases shape : configRoles config with
          | arr items =>
              obtain rfl : items = .obj fields :: others := by simpa [shape, iterate] using iterated
              exact ⟨_, resolveClientRole_none_of_first shape⟩
          | obj entries => cases entries <;> simp [shape, iterate] at iterated
          | str s => cases s <;> simp [shape, iterate] at iterated
          | null | bool | int | float => simp [shape, iterate, raise] at iterated
      | null | bool | int | float | str | arr => simp [nextRole, raise] at searched

end Resolution

section Invariant

variable {env : BuildEnv} {config : Dict}

/-- One call keeps the slots honest, whatever it is. -/
theorem slotsHonest_step (cache : ClientCache env) (call : CacheCall) (next : ClientCache env)
    (honest : SlotsHonest config cache) (taken : CacheStep config cache call next) :
    SlotsHonest config next := by
  subst taken
  cases call with
  | get roleName aws =>
      exact everySlot_get honest config roleName aws fun client resolved => ⟨rfl, resolved⟩
  | invalidate roleName => exact everySlot_invalidate honest roleName
  | clear => exact everySlot_nil

theorem mixed_kinds {left right : Option Str} (sameKey : cacheKey left = cacheKey right)
    (leftPresent : namePresent left = true) (rightAbsent : namePresent right = false) :
    left = some (lit "default") := by
  rw [cacheKey_present leftPresent, sameKey, cacheKey_absent rightAbsent]

/-- What an argument resolves to, seen from an argument of the other kind in its slot. -/
theorem resolve_mixed_iff {left right : Option Str} {entry : Dict}
    (sameKey : cacheKey left = cacheKey right) (mixed : namePresent left ≠ namePresent right)
    (resolved : resolveClientRole config right = .ok entry) :
    resolveClientRole config left = .ok entry ↔
      firstEntryNamed config (some (lit "default")) = true := by
  cases present : namePresent left with
  | true =>
      have absent : namePresent right = false := by simpa [present] using Ne.symm mixed
      obtain rfl := mixed_kinds sameKey present absent
      have none_resolved : resolveClientRole config none = .ok entry :=
        (resolveClientRole_absent rfl absent).trans resolved
      constructor
      · exact first_of_resolveClientRole_default none_resolved
      · intro first
        rw [← resolveClientRole_default_of_first first]
        exact none_resolved
  | false =>
      have rightPresent : namePresent right = true := by simpa [present] using Ne.symm mixed
      obtain rfl := mixed_kinds sameKey.symm rightPresent present
      rw [resolveClientRole_absent present (show namePresent none = false from rfl)]
      constructor
      · exact fun omitted => first_of_resolveClientRole_default omitted resolved
      · intro first
        rw [resolveClientRole_default_of_first first]
        exact resolved

/-- On honest slots a call is served right exactly when its slot was filled by
a call of its own kind, or both kinds mean the same entry. -/
theorem servedRight_iff {cache : ClientCache env} (honest : SlotsHonest config cache)
    (call : CacheCall) : ServedRight config cache call ↔ SameKind config cache call := by
  cases call with
  | invalidate roleName => exact Iff.rfl
  | clear => exact Iff.rfl
  | get roleName aws =>
      obtain ⟨slot, hit, outcome⟩ | ⟨miss, exc, outcome⟩ | ⟨miss, client, resolved, -, outcome⟩ :=
        getS3Client_cases config roleName aws cache
      · obtain ⟨sameKey, slotResolved⟩ := honest _ slot hit
        simp only [ServedRight, SameKind, outcome, Except.ok.injEq, forall_eq', hit,
          Option.some.injEq]
        by_cases kinds : namePresent roleName = namePresent slot.argument
        · refine iff_of_true ?_ (.inl kinds)
          rw [resolveClientRole_sameKind sameKey.symm kinds]
          exact slotResolved
        · simp only [kinds, false_or]
          exact resolve_mixed_iff sameKey.symm kinds slotResolved
      · simp [ServedRight, SameKind, outcome, miss]
      · refine iff_of_true ?_ ?_
        · intro returned served
          rw [outcome] at served
          obtain rfl := Except.ok.inj served
          exact resolved
        · intro slot found
          simp [miss] at found

theorem slotsNeverShared_iff : SlotsNeverShared config ↔ DefaultComesFirst config := by
  constructor
  · intro separate
    by_cases first : firstEntryNamed config (some (lit "default")) = true
    · exact .inl first
    · refine .inr fun entry found => ?_
      have named := (resolveClientRole_named present_default).mpr found
      obtain ⟨omittedEntry, omitted⟩ := resolveClientRole_none_of_found found
      by_cases same : omittedEntry = entry
      · subst same
        exact first (first_of_resolveClientRole_default omitted named)
      · exact separate none _ _ _ omitted named same rfl
  · rintro first left right leftEntry rightEntry leftResolved rightResolved different sameKey
    by_cases kinds : namePresent left = namePresent right
    · rw [resolveClientRole_sameKind sameKey kinds, rightResolved] at leftResolved
      exact different (Except.ok.inj leftResolved).symm
    · rcases first with first | unnamed
      · have same := (resolve_mixed_iff sameKey kinds rightResolved).mpr first
        rw [leftResolved] at same
        exact different (Except.ok.inj same)
      · cases present : namePresent left with
        | true =>
            have absent : namePresent right = false := by simpa [present] using Ne.symm kinds
            obtain rfl := mixed_kinds sameKey present absent
            exact unnamed _ ((resolveClientRole_named present_default).mp leftResolved)
        | false =>
            have rightPresent : namePresent right = true := by simpa [present] using Ne.symm kinds
            obtain rfl := mixed_kinds sameKey.symm rightPresent present
            exact unnamed _ ((resolveClientRole_named present_default).mp rightResolved)

/-- A run serves every call right and keeps different entries apart exactly when
it never mixes the two kinds of call in the slot `default`, and the config does
not let them mean different entries. -/
theorem cacheCorrect_iff {trace : List (ClientCache env × CacheCall)} {final : ClientCache env}
    (run : Execution (CacheStep config) [] trace final) :
    ((∀ visited ∈ trace, ServedRight config visited.1 visited.2) ∧ SlotsNeverShared config) ↔
      (∀ visited ∈ trace, SameKind config visited.1 visited.2) ∧ DefaultComesFirst config := by
  obtain ⟨-, honest⟩ := run.always slotsHonest_step everySlot_nil
  refine and_congr ?_ slotsNeverShared_iff
  exact forall₂_congr fun visited member => servedRight_iff (honest visited member) visited.2

end Invariant

section Order

/-- Two entries, the second of which carries the name `default`. -/
def archiveEntry : Dict :=
  [(lit "name", .str (lit "archive")), (lit "type", .str (lit "default"))]

def defaultEntry : Dict :=
  [(lit "name", .str (lit "default")), (lit "type", .str (lit "profile")),
    (lit "profile_name", .str (lit "ops"))]

def twoRolesConfig : Dict :=
  [(lit "roles", .arr [.obj archiveEntry, .obj defaultEntry])]

def plainEnv : BuildEnv where
  unicode := .ascii
  awsRegion := none

def afterOmitted : ClientCache plainEnv :=
  afterCall twoRolesConfig [] (.get none (.ok ()))

theorem execution_omitted :
    Execution (CacheStep twoRolesConfig) ([] : ClientCache plainEnv)
      [([], .get none (.ok ()))] afterOmitted :=
  .snoc .nil rfl

/-- A run of one call, as an instance of the general statement. -/
theorem cacheCorrect_omitted :
    ((∀ visited ∈ [(([] : ClientCache plainEnv), CacheCall.get none (.ok ()))],
        ServedRight twoRolesConfig visited.1 visited.2) ∧ SlotsNeverShared twoRolesConfig) ↔
      (∀ visited ∈ [(([] : ClientCache plainEnv), CacheCall.get none (.ok ()))],
        SameKind twoRolesConfig visited.1 visited.2) ∧ DefaultComesFirst twoRolesConfig :=
  cacheCorrect_iff execution_omitted

/-- Asking without a role first, then for the role `default`, returns the client
of the first entry both times. -/
theorem default_served_by_first :
    ¬ ∀ (config : Dict) (trace : List (ClientCache plainEnv × CacheCall))
        (final : ClientCache plainEnv), DistinctNames config →
        Execution (CacheStep config) [] trace final →
        (∀ visited ∈ trace, ServedRight config visited.1 visited.2) ∧ SlotsNeverShared config := by
  intro correct
  have distinct : DistinctNames twoRolesConfig :=
    ⟨[archiveEntry, defaultEntry], rfl, by decide⟩
  have run : Execution (CacheStep twoRolesConfig) ([] : ClientCache plainEnv)
      ([([], .get none (.ok ()))] ++ [(afterOmitted, .get (some (lit "default")) (.ok ()))]) _ :=
    .snoc execution_omitted rfl
  have served := (correct twoRolesConfig _ _ distinct run).1
    (afterOmitted, .get (some (lit "default")) (.ok ())) (by simp)
  have wrong := served _ rfl
  have resolved : resolveClientRole twoRolesConfig (some (lit "default")) = .ok defaultEntry := rfl
  rw [resolved] at wrong
  exact absurd (Except.ok.inj wrong) (by decide)

end Order

end S3Manager.Clients
