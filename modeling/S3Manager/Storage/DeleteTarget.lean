import S3Manager.Storage.DeleteRuns

/-! Whether a delete removes what its path asks for: the object of that name, or,
after a trailing slash, every key that starts with the path. -/

set_option autoImplicit false

namespace S3Manager.Storage

open Python Access Library

section Thinned

variable {bucket : Str} {target : Str → Prop} {before between after : Store}

/-- A store that has lost some of the targeted keys of a bucket, and nothing else. -/
structure Thinned (bucket : Str) (target : Str → Prop) (before after : Store) : Prop where
  kept : ∀ name key, ¬ (name = bucket ∧ target key) →
    after.get? name key = before.get? name key
  fewer : ∀ name key, before.get? name key = none → after.get? name key = none

theorem thinned_refl (bucket : Str) (target : Str → Prop) (store : Store) :
    Thinned bucket target store store where
  kept _ _ _ := rfl
  fewer _ _ absent := absent

theorem Thinned.trans (first : Thinned bucket target before between)
    (second : Thinned bucket target between after) : Thinned bucket target before after where
  kept name key other := (second.kept name key other).trans (first.kept name key other)
  fewer name key absent := second.fewer name key (first.fewer name key absent)

theorem Thinned.mono {wider : Str → Prop} (thinned : Thinned bucket target before after)
    (within : ∀ key, before.get? bucket key ≠ none → target key → wider key) :
    Thinned bucket wider before after where
  kept name key other := by
    by_cases targeted : name = bucket ∧ target key
    · obtain ⟨rfl, hit⟩ := targeted
      have absent : before.get? name key = none := by
        by_contra present
        exact other ⟨rfl, within key present hit⟩
      rw [absent]
      exact thinned.fewer name key absent
    · exact thinned.kept name key targeted
  fewer := thinned.fewer

theorem thinned_eraseAll {keys : List Str} (within : ∀ key ∈ keys, target key) :
    Thinned bucket target before (before.eraseAll bucket keys) where
  kept name key other := by
    rw [get?_eraseAll, if_neg]
    intro erased
    exact other ⟨erased.1, within key erased.2⟩
  fewer name key absent := by
    rw [get?_eraseAll, absent, ite_self]

theorem gone_eraseAll {keys : List Str} {key : Str} (member : key ∈ keys) :
    (before.eraseAll bucket keys).get? bucket key = none := by
  rw [get?_eraseAll, if_pos ⟨rfl, member⟩]

end Thinned

section Attempts

variable {conventions : Conventions} {bucket path : Str} {pages : Nat}
  {before between after : Store}

/-- What a delete that fails may leave behind: some of its keys are gone. -/
structure Touched (bucket path : Str) (before after : Store) : Prop where
  thinned : Thinned bucket (Targeted path) before after
  idle : endsWith path ['/'] = false → before.get? bucket path = none → after = before

/-- What a delete that returns leaves behind. -/
structure Deleted (bucket path : Str) (before after : Store) : Prop where
  thinned : Thinned bucket (Targeted path) before after
  gone : ∀ key, Targeted path key → after.get? bucket key = none
  existed : endsWith path ['/'] = false → before.get? bucket path ≠ none

theorem touched_refl (bucket path : Str) (store : Store) : Touched bucket path store store where
  thinned := thinned_refl ..
  idle _ _ := rfl

theorem Touched.trans (first : Touched bucket path before between)
    (second : Touched bucket path between after) : Touched bucket path before after where
  thinned := first.thinned.trans second.thinned
  idle plain absent := by
    have same := first.idle plain absent
    subst same
    exact second.idle plain absent

theorem Touched.deleted (first : Touched bucket path before between)
    (second : Deleted bucket path between after) : Deleted bucket path before after where
  thinned := first.thinned.trans second.thinned
  gone := second.gone
  existed plain absent := by
    have same := first.idle plain absent
    subst same
    exact second.existed plain absent

theorem deleteEach_run {batches : List (List Str)} {deleted : Nat} {world left : World}
    {result : Result Nat} (ran : (deleteEach bucket batches deleted).run conventions world =
      (result, left)) :
    Thinned bucket (· ∈ batches.flatten) world.store left.store ∧
      ∀ value, result = .ok value → ∀ key ∈ batches.flatten,
        left.store.get? bucket key = none := by
  induction batches generalizing deleted world with
  | nil =>
      cases ran
      refine ⟨thinned_refl .., ?_⟩
      intro value _ key member
      cases member
  | cons batch rest ih =>
      rw [deleteEach, run_bind, run_call] at ran
      cases fault : world.faults 0 with
      | some exc =>
          rw [handle_fails fault] at ran
          cases ran
          refine ⟨thinned_refl .., ?_⟩
          intro value claim
          cases claim
      | none =>
          rw [handle_answers fault] at ran
          obtain ⟨thinned, gone⟩ := @ih (deleted + batch.length)
            (world.later (world.store.eraseAll bucket batch)) ran
          have now : Thinned bucket (· ∈ (batch :: rest).flatten) world.store
              (world.store.eraseAll bucket batch) :=
            thinned_eraseAll fun key member => List.mem_append_left _ member
          have later : Thinned bucket (· ∈ (batch :: rest).flatten)
              (world.store.eraseAll bucket batch) left.store :=
            thinned.mono fun key _ member => List.mem_append_right _ member
          refine ⟨now.trans later, ?_⟩
          intro value ended key member
          obtain first | last := List.mem_append.mp (List.flatten_cons ▸ member)
          · exact thinned.fewer bucket key (gone_eraseAll first)
          · exact gone value ended key last

/-- The store that one attempt leaves. -/
def Attempted {α : Type} (bucket path : Str) (before : Store) (result : Result α)
    (after : Store) : Prop :=
  match result with
  | .ok _ => Deleted bucket path before after
  | .error _ => Touched bucket path before after

theorem deleteDirectory_attempted {faults : Nat → Option PyError} {result : Result Nat}
    {left : World} (slash : endsWith path ['/'] = true)
    (ran : (deleteDirectory pages bucket path).run conventions ⟨before, faults⟩ =
      (result, left)) :
    Attempted bucket path before result left.store := by
  have notPlain (plain : endsWith path ['/'] = false) : False := by
    rw [slash] at plain
    cases plain
  have targeted (key : Str) : Targeted path key ↔ folderOf path <+: key := by
    rw [Targeted, if_pos slash]
  have listed := @atomic_paginate conventions before (folderParams bucket path) _ pages
    (listing_ascending rfl) (pageSize_pos (by simp [folderParams, firstPage])) folder_remaining
  unfold deleteDirectory at ran
  rw [run_bind] at ran
  obtain ⟨replies, world, paged, same, seen⟩ | ⟨exc, world, paged, same⟩ := listed.cases faults
  · have contents := seen.contents
    rw [object?_map] at contents
    have keys : pageKeys replies =
        (before.objectsUnder bucket (folderOf path)).map S3Object.key := by
      rw [pageKeys_eq, contents]
    rw [folderParams, folderOf] at paged
    rw [paged] at ran
    dsimp only at ran
    split_ifs at ran with empty
    · cases ran
      rw [same]
      exact touched_refl ..
    · obtain ⟨thinned, gone⟩ := deleteEach_run ran
      rw [deleteBatches_flatten, keys, same] at thinned
      rw [deleteBatches_flatten, keys] at gone
      have only : Thinned bucket (Targeted path) before left.store :=
        thinned.mono fun key _ member => (targeted key).mpr (mem_objectsUnder.mp member).1
      cases result with
      | error exc => exact ⟨only, fun plain => (notPlain plain).elim⟩
      | ok count =>
          refine ⟨only, fun key hit => ?_, fun plain => (notPlain plain).elim⟩
          cases found : before.get? bucket key with
          | none => exact only.fewer bucket key found
          | some stored =>
              exact gone count rfl key
                (mem_objectsUnder.mpr ⟨(targeted key).mp hit, stored, found⟩)
  · rw [folderParams, folderOf] at paged
    rw [paged] at ran
    cases ran
    rw [same]
    exact touched_refl ..

theorem deleteSingle_attempted {faults : Nat → Option PyError} {result : Result Nat}
    {left : World} (plain : endsWith path ['/'] = false)
    (ran : (deleteSingle bucket path).run conventions ⟨before, faults⟩ = (result, left)) :
    Attempted bucket path before result left.store := by
  have whole := rstripSlash_eq_self plain
  have targeted (key : Str) : Targeted path key ↔ key = path := by
    rw [Targeted, if_neg (by simp [plain])]
  have single := @atomic_deleteSingle conventions before bucket path
  rw [whole] at single
  obtain ⟨count, world, ended, present, erased⟩ | ⟨exc, world, ended, same⟩ := single.cases faults
  · rw [ended] at ran
    cases ran
    rw [erased]
    refine ⟨thinned_eraseAll fun key member => ?_, fun key hit => ?_, fun _ => present⟩
    · exact (targeted key).mpr (List.mem_singleton.mp member)
    · exact gone_eraseAll (List.mem_singleton.mpr ((targeted key).mp hit))
  · rw [ended] at ran
    cases ran
    rw [same]
    exact touched_refl ..

theorem deletePathKeys_attempted {faults : Nat → Option PyError} {result : Result Nat}
    {left : World}
    (ran : (deletePathKeys pages bucket path).run conventions ⟨before, faults⟩ =
      (result, left)) :
    Attempted bucket path before result left.store := by
  cases slash : endsWith path ['/'] with
  | true =>
      rw [deletePathKeys, if_pos slash] at ran
      exact deleteDirectory_attempted slash ran
  | false =>
      rw [deletePathKeys, if_neg (by simp [slash])] at ran
      exact deleteSingle_attempted slash ran

end Attempts

section Target

variable {unicode : Unicode} {config : Dict} {conventions : Conventions} {role : Option Str}
  {bucket path : Str} {user : UserDict} {pages : Nat} {store : Store}

/-- What a delete of `path` asks for. -/
def Asked (path key : Str) : Prop :=
  if endsWith path ['/'] then path <+: key else key = path

/-- How a delete of `path` has to end. -/
structure Ended {α : Type} (bucket path : Str) (before : Store) (result : Result α)
    (after : Store) : Prop where
  frame : ∀ name key, ¬ (name = bucket ∧ Asked path key) →
    after.get? name key = before.get? name key
  removed : ∀ value, result = .ok value → ∀ key, Asked path key → after.get? bucket key = none
  existed : ∀ value, result = .ok value → endsWith path ['/'] = false →
    before.get? bucket path ≠ none
  missing : endsWith path ['/'] = false → before.get? bucket path = none → after = before

variable (unicode config conventions role bucket path user pages store) in
/-- A delete of `path` hits its target exactly, whichever calls fail, and says so
when there is none. -/
structure ExactTarget : Prop where
  ended : ∀ faults result after,
    (deleteObjectForRole unicode config pages role bucket path user).run conventions
      ⟨store, faults⟩ = (result, after) → Ended bucket path store result after.store
  refused : endsWith path ['/'] = false → store.get? bucket path = none →
    ∃ exc after, (deleteObjectForRole unicode config pages role bucket path user).run conventions
      (calm store) = (.error exc, after) ∧ exc.kind = .fileNotFoundError

variable (unicode bucket path store) in
/-- Nothing else lies in the folder of `path`, and the answer for a missing object
does not read like expired credentials. -/
def TargetClear : Prop :=
  if endsWith path ['/'] then
    ∀ key, folderOf path <+: key → store.get? bucket key ≠ none → path <+: key
  else
    store.get? bucket path = none →
      isExpiredError unicode .fileNotFoundError (deleteNotFound path) = false

theorem asked_targeted {key : Str} (asked : Asked path key) : Targeted path key := by
  unfold Asked at asked
  unfold Targeted
  split_ifs at asked ⊢ with slash
  · exact (under_folderOf slash).trans asked
  · exact asked

theorem ended_of_attempted {α : Type} {result : Result α} {after : Store}
    (clear : TargetClear unicode bucket path store)
    (attempted : Attempted bucket path store result after) :
    Ended bucket path store result after := by
  have within : ∀ key, store.get? bucket key ≠ none → Targeted path key → Asked path key := by
    intro key present targeted
    unfold TargetClear at clear
    unfold Targeted at targeted
    unfold Asked
    split_ifs at clear targeted ⊢ with slash
    · exact clear key targeted present
    · exact targeted
  cases result with
  | ok value =>
      refine ⟨(attempted.thinned.mono within).kept, ?_, ?_, ?_⟩
      · intro _ _ key asked
        exact attempted.gone key (asked_targeted asked)
      · intro _ _ plain
        exact attempted.existed plain
      · intro plain absent
        exact absurd absent (attempted.existed plain)
  | error exc =>
      refine ⟨(attempted.thinned.mono within).kept, ?_, ?_, attempted.idle⟩
      · intro _ claim
        cases claim
      · intro _ claim
        cases claim

theorem deletePathKeys_missing (plain : endsWith path ['/'] = false)
    (absent : store.get? bucket path = none) :
    (deletePathKeys pages bucket path).run conventions (calm store) =
      (.error (.raised .fileNotFoundError (deleteNotFound path) none), calm store) := by
  have whole := rstripSlash_eq_self plain
  have page := returns_call (@answer_page conventions store (singleParams bucket path) _
    single_remaining)
  rw [deletePathKeys, if_neg (by simp [plain]), deleteSingle]
  refine (run_bind_returns page).trans ?_
  split
  · rfl
  · next object rest shown =>
      have present := listed_present rfl shown
      have other : object.key ≠ rstripSlash path := by
        intro same
        rw [same, whole] at present
        exact present absent
      rw [if_neg other]
      rfl

/-- The callback of the retry. -/
def reported (pages : Nat) (bucket path : Str) : S3Program DeleteResult := do
  let deleted ← deletePathKeys pages bucket path
  pure ⟨lit "Successfully deleted " ++ lit (toString deleted) ++ lit " object(s)", deleted⟩

theorem delete_eq {validated : Option Str} (world : World)
    (permitted : validateStorageAccess config role bucket user path = .ok validated) :
    (deleteObjectForRole unicode config pages role bucket path user).run conventions world =
      (executeWithS3Retry unicode validated (reported pages bucket path)).run conventions
        world := by
  unfold deleteObjectForRole gatedCall
  rw [permitted]
  rfl

theorem leaves_reported (before : Store) :
    Leaves conventions (reported pages bucket path) (Touched bucket path before)
      fun _ after => Deleted bucket path before after := by
  intro between touched faults
  rw [reported, run_bind]
  cases ran : (deletePathKeys pages bucket path).run conventions ⟨between, faults⟩ with
  | mk result after =>
      have attempted := deletePathKeys_attempted ran
      cases result with
      | ok deleted => exact touched.deleted attempted
      | error exc => exact touched.trans attempted

theorem delete_run {validated : Option Str} {faults : Nat → Option PyError}
    {result : Result DeleteResult} {after : World}
    (permitted : validateStorageAccess config role bucket user path = .ok validated)
    (ran : (deleteObjectForRole unicode config pages role bucket path user).run conventions
      ⟨store, faults⟩ = (result, after)) :
    Attempted bucket path store result after.store := by
  have left := @leaves_retry _ _ unicode validated _ _ _
    (@leaves_reported conventions bucket path pages store) store (touched_refl ..) faults
  rw [← delete_eq _ permitted, ran] at left
  cases result with
  | ok value => exact left
  | error exc => exact left

theorem missing_raises {validated : Option Str}
    (permitted : validateStorageAccess config role bucket user path = .ok validated)
    (plain : endsWith path ['/'] = false) (absent : store.get? bucket path = none) :
    (deleteObjectForRole unicode config pages role bucket path user).run conventions (calm store) =
      (.error (afterRetry unicode (.raised .fileNotFoundError (deleteNotFound path) none)),
        calm store) := by
  rw [delete_eq _ permitted]
  apply retry_raises
  · rw [reported, run_bind, deletePathKeys_missing plain absent]
  · rfl

theorem answer_clear {validated : Option Str}
    (permitted : validateStorageAccess config role bucket user path = .ok validated)
    (plain : endsWith path ['/'] = false)
    (exact : ExactTarget unicode config conventions role bucket path user pages store)
    (absent : store.get? bucket path = none) :
    isExpiredError unicode .fileNotFoundError (deleteNotFound path) = false := by
  obtain ⟨exc, after, ran, kind⟩ := exact.refused plain absent
  rw [missing_raises permitted plain absent] at ran
  obtain ⟨same, _⟩ := Prod.mk.inj ran
  obtain rfl := Except.error.inj same
  by_contra expired
  have said : isExpiredError unicode .fileNotFoundError (deleteNotFound path) = true := by
    simpa using expired
  simp [afterRetry, isExpiredCredentialsError, said, PyError.kind] at kind

theorem folder_clear {validated : Option Str}
    (permitted : validateStorageAccess config role bucket user path = .ok validated)
    (enough : (store.objects bucket).entries.length ≤ pages + 1)
    (slash : endsWith path ['/'] = true)
    (exact : ExactTarget unicode config conventions role bucket path user pages store)
    (key : Str) (under : folderOf path <+: key) (present : store.get? bucket key ≠ none) :
    path <+: key := by
  by_contra stray
  obtain ⟨stored, found⟩ := Option.ne_none_iff_exists'.mp present
  have member : key ∈ (store.objectsUnder bucket (folderOf path)).map S3Object.key :=
    mem_objectsUnder.mpr ⟨under, stored, found⟩
  have occupied : store.objectsUnder bucket (folderOf path) ≠ [] := by
    intro empty
    rw [empty] at member
    cases member
  have short : (store.objectsUnder bucket (folderOf path)).length ≤ pages + 1 := by
    rw [Store.objectsUnder, List.length_map]
    exact (List.length_filter_le _ _).trans enough
  obtain ⟨count, after, ran, erased⟩ :=
    @deleteDirectory_returns conventions store bucket path pages short occupied
  have deleted : Returns conventions (deletePathKeys pages bucket path) store count after := by
    rw [deletePathKeys, if_pos slash]
    exact ran
  have said : Returns conventions (reported pages bucket path) store
      ⟨lit "Successfully deleted " ++ lit (toString count) ++ lit " object(s)", count⟩ after :=
    returns_bind deleted (returns_pure _)
  have whole := @returns_retry _ _ _ _ unicode validated _ _ said
  have same := exact.ended _ _ _ ((delete_eq (calm store) permitted).trans whole)
  have kept := same.frame bucket key (by simp [Asked, slash, stray])
  change after.get? bucket key = store.get? bucket key at kept
  rw [erased, if_pos ⟨rfl, under⟩, found] at kept
  cases kept

/-- A delete hits its target exactly when its folder is clear. -/
theorem exactTarget_iff {validated : Option Str}
    (permitted : validateStorageAccess config role bucket user path = .ok validated)
    (enough : (store.objects bucket).entries.length ≤ pages + 1) :
    ExactTarget unicode config conventions role bucket path user pages store ↔
      TargetClear unicode bucket path store := by
  constructor
  · intro exact
    cases slash : endsWith path ['/'] with
    | true =>
        rw [TargetClear, if_pos slash]
        exact folder_clear permitted enough slash exact
    | false =>
        rw [TargetClear, if_neg (by simp [slash])]
        exact answer_clear permitted slash exact
  · intro clear
    refine ⟨fun faults result after ran => ?_, fun plain absent => ?_⟩
    · exact ended_of_attempted clear (delete_run permitted ran)
    · have said : isExpiredError unicode .fileNotFoundError (deleteNotFound path) = false := by
        rw [TargetClear, if_neg (by simp [plain])] at clear
        exact clear absent
      refine ⟨_, _, missing_raises permitted plain absent, ?_⟩
      simp [afterRetry, isExpiredCredentialsError, said, PyError.kind]

/-- Two keys of one folder, one of them below a folder without a name. -/
def doubledStore : Store where
  bucketNames := [lit "data"]
  objects _ := (OrderedMap.empty.insert (lit "a/x") ⟨[1], none, []⟩).insert (lit "a//y")
    ⟨[2], none, []⟩
  now := []

theorem exactTarget_doubled :
    ExactTarget Unicode.ascii [] Conventions.plain none (lit "data") (lit "a/")
        ⟨true, [], none⟩ 1 doubledStore ↔
      TargetClear Unicode.ascii (lit "data") (lit "a/") doubledStore := by
  refine @exactTarget_iff _ _ _ _ _ _ _ _ _ none ?_ ?_
  · rfl
  · decide

/-- Deleting the folder without a name takes its neighbours along. -/
theorem doubled_slash_takes_more :
    ¬ ∀ (unicode : Unicode) (config : Dict) (conventions : Conventions) (role : Option Str)
        (bucket path : Str) (user : UserDict) (pages : Nat) (store : Store)
        (validated : Option Str),
        validateStorageAccess config role bucket user path = .ok validated →
        (store.objects bucket).entries.length ≤ pages + 1 →
        ExactTarget unicode config conventions role bucket path user pages store := by
  intro always
  have permitted : validateStorageAccess [] none (lit "data") ⟨true, [], none⟩ (lit "a//") =
      .ok none := rfl
  have enough : (doubledStore.objects (lit "data")).entries.length ≤ 1 + 1 := by decide
  have exact := always Unicode.ascii [] Conventions.plain none (lit "data") (lit "a//")
    ⟨true, [], none⟩ 1 doubledStore none permitted enough
  have under := folder_clear permitted enough (by decide) exact (lit "a/x") (by decide) (by decide)
  exact absurd under (by decide)

end Target

end S3Manager.Storage
