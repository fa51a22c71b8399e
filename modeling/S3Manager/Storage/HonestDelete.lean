import S3Manager.Storage.LossyStore
import S3Manager.Storage.RetryLoop

/-! What `delete_object_for_role` says about a delete, against what S3 did. -/

set_option autoImplicit false

namespace S3Manager.Storage.Lossy

open Python Access Library

section Batches

variable {conventions : Conventions} {world : LossyWorld} {bucket : Str}

/-- The store without the keys that these answers removed. -/
def Emptied (bucket : Str) (before : Store) (events : List S3Event) (store : Store) : Prop :=
  ∀ name key, store.get? name key =
    if name = bucket ∧ key ∈ removedKeys events then none else before.get? name key

/-- How the batches end: their keys are removed or refused. -/
structure Batched (batches : List (List Str)) (deleted : Nat) (events : List S3Event)
    (result : Result Nat) : Prop where
  kept : S3Event.rebuilt ∉ events
  within : ∃ left, ((removedKeys events ++ refusedKeys events) ++ left).Perm batches.flatten
  ended : ∀ count, result = .ok count → count = deleted + batches.flatten.length ∧
    (removedKeys events ++ refusedKeys events).Perm batches.flatten ∧
    ((batches = [] ∧ events = []) ∨
      ∃ removed refused, events.getLast? = some (.deleted removed refused))
  failing : ∀ exc, result = .error exc →
    exc.kind ≠ .fileNotFoundError ∧ events.getLast? = some .failed

theorem emptied_same {events : List S3Event} (bucket : Str) (store : Store)
    (none : removedKeys events = []) : Emptied bucket store events store := by
  intro name key
  simp [none]

theorem Emptied.trans {before between store : Store} {first second : List S3Event}
    (left : Emptied bucket before first between) (right : Emptied bucket between second store) :
    Emptied bucket before (first ++ second) store := by
  intro name key
  rw [right, left, removedKeys_append]
  by_cases here : name = bucket
  · by_cases early : key ∈ removedKeys first <;> simp [here, early]
  · simp [here]

theorem perm_interleave {α : Type} (first second third fourth : List α) :
    ((first ++ second) ++ (third ++ fourth)).Perm ((first ++ third) ++ (second ++ fourth)) := by
  rw [List.append_assoc, List.append_assoc]
  exact (List.perm_append_comm_assoc second third fourth).append_left first

theorem batched_nil (deleted : Nat) : Batched [] deleted [] (.ok deleted) where
  kept := List.not_mem_nil
  within := ⟨[], .refl _⟩
  ended count same := by
    obtain rfl := Except.ok.inj same
    exact ⟨rfl, .refl _, .inl ⟨rfl, rfl⟩⟩
  failing _ claim := by cases claim

theorem batched_failed {batches : List (List Str)} {deleted : Nat} (fault : S3Fault) :
    Batched batches deleted [.failed] (.error fault.1) where
  kept := by simp
  within := ⟨batches.flatten, .refl _⟩
  ended _ claim := by cases claim
  failing exc same := by
    obtain rfl := Except.error.inj same
    exact ⟨fault.2, rfl⟩

theorem batched_cons {batch removed refused : List Str} {rest : List (List Str)} {deleted : Nat}
    {events : List S3Event} {result : Result Nat}
    (answer : (removed ++ refused).Perm batch)
    (later : Batched rest (deleted + batch.length) events result) :
    Batched (batch :: rest) deleted (.deleted removed refused :: events) result := by
  have shuffled : (removedKeys (.deleted removed refused :: events) ++
      refusedKeys (.deleted removed refused :: events)).Perm
      ((removed ++ refused) ++ (removedKeys events ++ refusedKeys events)) :=
    perm_interleave removed (removedKeys events) refused (refusedKeys events)
  refine ⟨?_, ?_, fun count same => ?_, fun exc same => ?_⟩
  · simpa using later.kept
  · obtain ⟨left, all⟩ := later.within
    refine ⟨left, (shuffled.append_right left).trans ?_⟩
    rw [List.append_assoc, List.flatten_cons]
    exact answer.append all
  · obtain ⟨counted, all, last⟩ := later.ended count same
    refine ⟨?_, ?_, .inr ?_⟩
    · rw [counted, List.flatten_cons, List.length_append, Nat.add_assoc]
    · rw [List.flatten_cons]
      exact shuffled.trans (answer.append all)
    · obtain ⟨-, rfl⟩ | ⟨removed, refused, ends⟩ := last
      · exact ⟨removed, refused, rfl⟩
      · exact ⟨removed, refused, getLast?_cons_of_some ends⟩
  · obtain ⟨genuine, ends⟩ := later.failing exc same
    exact ⟨genuine, getLast?_cons_of_some ends⟩

theorem deleteEach_ran (batches : List (List Str)) (deleted : Nat) :
    ∃ result events store, Ran conventions (deleteEach bucket batches deleted) world result events
        store ∧ Emptied bucket world.store events store ∧ Batched batches deleted events result := by
  induction batches generalizing deleted world with
  | nil => exact ⟨_, _, _, ran_ofResult (.ok deleted), emptied_same _ _ rfl, batched_nil deleted⟩
  | cons batch rest ih =>
      cases failing : world.fault with
      | some fault =>
          exact ⟨_, _, _, ran_bind_error (ran_fails failing), emptied_same _ _ rfl,
            batched_failed fault⟩
      | none =>
          let refuses := world.refuses world.log.length
          let refused := batch.filter refuses
          let removed := batch.filter fun key => !refuses key
          have first : Ran conventions (S3Program.call (.deleteObjects bucket batch)) world
              (.ok refused) [.deleted removed refused] (world.store.eraseAll bucket removed) :=
            ran_serves failing rfl
          have erased : Emptied bucket world.store [.deleted removed refused]
              (world.store.eraseAll bucket removed) := by
            intro name key
            simp [get?_eraseAll, removedKeys]
          have answer : (removed ++ refused).Perm batch :=
            List.perm_append_comm.trans (List.filter_append_perm refuses batch)
          obtain ⟨result, events, store, ran, emptied, batched⟩ :=
            @ih (world.after [.deleted removed refused] (world.store.eraseAll bucket removed))
              (deleted + batch.length)
          exact ⟨result, _, store, ran_bind_ok first ran, erased.trans emptied,
            batched_cons answer batched⟩

end Batches

section Attempts

variable {conventions : Conventions} {world : LossyWorld} {bucket path : Str} {pages : Nat}
  {before after : Store} {events : List S3Event} {result : Result Nat}

/-- What one run of the callback leaves, in the answers it got and in the store. -/
structure Attempt (bucket path : Str) (before : Store) (events : List S3Event)
    (result : Result Nat) (after : Store) : Prop where
  kept : S3Event.rebuilt ∉ events
  emptied : Emptied bucket before events after
  once : (removedKeys events).Nodup
  present : ∀ key ∈ removedKeys events, Targeted path key ∧ before.get? bucket key ≠ none
  counted : ∀ count, result = .ok count →
    count = (removedKeys events).length + (refusedKeys events).length
  refused : ∀ count, result = .ok count → ∀ key ∈ refusedKeys events,
    Targeted path key ∧ after.get? bucket key ≠ none
  covered : ∀ count, result = .ok count → ∀ key, Targeted path key →
    before.get? bucket key ≠ none → key ∈ removedKeys events ∨ key ∈ refusedKeys events
  /-- Only the branch for one key deletes without being able to fail afterwards. -/
  single : endsWith path ['/'] = false → ∀ exc, result = .error exc → removedKeys events = []
  missing : ∀ exc, result = .error exc → exc.kind = .fileNotFoundError →
    exc = .new .fileNotFoundError (deleteNotFound path) ∧ removedKeys events = [] ∧
      (endsWith path ['/'] = true → events.getLast? = some (.listed [] false))
  deletedLast : (∃ count, result = .ok count) ↔
    ∃ removed refused, events.getLast? = some (.deleted removed refused)
  listedLast : events.getLast? = some (.listed [] false) →
    ∃ exc, result = .error exc ∧ exc.kind = .fileNotFoundError

/-- An attempt that ends in an error before it deletes anything. -/
theorem attempt_failed {exc : PyError} (reading : Reading events)
    (notDeleted : ∀ removed refused, events.getLast? ≠ some (.deleted removed refused))
    (missing : exc.kind = .fileNotFoundError →
      exc = .new .fileNotFoundError (deleteNotFound path) ∧
        (endsWith path ['/'] = true → events.getLast? = some (.listed [] false)))
    (listed : events.getLast? = some (.listed [] false) → exc.kind = .fileNotFoundError) :
    Attempt bucket path before events (.error exc) before where
  kept := reading.kept
  emptied := emptied_same _ _ reading.removed
  once := by simp [reading.removed]
  present := by simp [reading.removed]
  counted _ claim := by cases claim
  refused _ claim := by cases claim
  covered _ claim := by cases claim
  single _ _ _ := reading.removed
  missing other same kind := by
    obtain rfl := Except.error.inj same
    exact ⟨(missing kind).1, reading.removed, (missing kind).2⟩
  deletedLast := by
    constructor
    · rintro ⟨count, claim⟩
      cases claim
    · rintro ⟨removed, refused, last⟩
      exact absurd last (notDeleted removed refused)
  listedLast last := ⟨exc, rfl, listed last⟩

theorem pageKeys_shown {replies : List ListPage} {objects : List S3Object}
    (shown : Shows replies (objects.map .object)) :
    pageKeys replies = objects.map S3Object.key := by
  rw [pageKeys_eq, shown.contents, object?_map]

theorem objectsUnder_nodup (store : Store) (bucket searchPrefix : Str) :
    ((store.objectsUnder bucket searchPrefix).map S3Object.key).Nodup :=
  List.pairwise_map.mpr ((objectsUnder_ascending store bucket searchPrefix).imp ne_of_lt)

/-- The batches of a directory, once its keys are listed. -/
theorem attempt_batched {listing deletes : List S3Event}
    (slash : endsWith path ['/'] = true) (reading : Reading listing)
    (occupied : before.objectsUnder bucket (folderOf path) ≠ [])
    (emptied : Emptied bucket before deletes after)
    (batched : Batched (deleteBatches ((before.objectsUnder bucket (folderOf path)).map
      S3Object.key)) 0 deletes result) :
    Attempt bucket path before (listing ++ deletes) result after := by
  have targeted (key : Str) : Targeted path key ↔ folderOf path <+: key := by
    rw [Targeted, if_pos slash]
  have listed (key : Str) : key ∈ (before.objectsUnder bucket (folderOf path)).map S3Object.key ↔
      Targeted path key ∧ before.get? bucket key ≠ none := by
    rw [mem_objectsUnder, targeted, Option.ne_none_iff_exists']
  have removed : removedKeys (listing ++ deletes) = removedKeys deletes := by
    rw [removedKeys_append, reading.removed, List.nil_append]
  have refused : refusedKeys (listing ++ deletes) = refusedKeys deletes := by
    rw [refusedKeys_append, reading.refused, List.nil_append]
  obtain ⟨left, within⟩ := batched.within
  rw [deleteBatches_flatten] at within
  -- Removed, refused and remaining keys are the listed ones, each once.
  have apart : ((removedKeys deletes ++ refusedKeys deletes) ++ left).Nodup :=
    within.nodup_iff.mpr (objectsUnder_nodup ..)
  have found (key : Str) (member : key ∈ removedKeys deletes ++ refusedKeys deletes) :
      Targeted path key ∧ before.get? bucket key ≠ none :=
    (listed key).mp (within.subset (List.mem_append_left _ member))
  have ending (count : Nat) (same : result = .ok count) := batched.ended count same
  rw [deleteBatches_flatten] at ending
  have live : deleteBatches ((before.objectsUnder bucket (folderOf path)).map S3Object.key) ≠ [] := by
    intro none
    have flat := deleteBatches_flatten
      ((before.objectsUnder bucket (folderOf path)).map S3Object.key)
    rw [none] at flat
    exact occupied (List.map_eq_nil_iff.mp flat.symm)
  have lastEvent (event : S3Event) (ends : deletes.getLast? = some event) :
      (listing ++ deletes).getLast? = some event := by
    rw [List.getLast?_append, ends]
    rfl
  have finished (count : Nat) (same : result = .ok count) :
      ∃ removed refused, (listing ++ deletes).getLast? = some (.deleted removed refused) := by
    obtain ⟨-, -, ⟨none, -⟩ | ⟨removed, refused, ends⟩⟩ := ending count same
    · exact absurd none live
    · exact ⟨removed, refused, lastEvent _ ends⟩
  refine ⟨?_, ?_, ?_, ?_, ?_, ?_, ?_, ?_, ?_, ?_, ?_⟩
  · simpa using ⟨reading.kept, batched.kept⟩
  · exact (emptied_same bucket before reading.removed).trans emptied
  · rw [removed]
    exact (List.nodup_append.mp (List.nodup_append.mp apart).1).1
  · rw [removed]
    exact fun key member => found key (List.mem_append_left _ member)
  · intro count same
    obtain ⟨counted, all, -⟩ := ending count same
    rw [removed, refused, counted, Nat.zero_add, ← all.length_eq, List.length_append]
  · intro count same key member
    rw [refused] at member
    obtain ⟨target, present⟩ := found key (List.mem_append_right _ member)
    have survives : key ∉ removedKeys deletes := fun gone =>
      (List.nodup_append.mp (List.nodup_append.mp apart).1).2.2 key gone key member rfl
    refine ⟨target, ?_⟩
    rw [emptied, if_neg fun gone => survives gone.2]
    exact present
  · intro count same key target present
    obtain ⟨-, all, -⟩ := ending count same
    rw [removed, refused]
    exact List.mem_append.mp (all.symm.subset ((listed key).mpr ⟨target, present⟩))
  · intro plain
    rw [slash] at plain
    cases plain
  · intro exc same kind
    exact absurd kind (batched.failing exc same).1
  · constructor
    · rintro ⟨count, same⟩
      exact finished count same
    · rintro ⟨gone, kept, last⟩
      cases result with
      | ok count => exact ⟨count, rfl⟩
      | error exc =>
          have failed := lastEvent _ (batched.failing exc rfl).2
          cases failed.symm.trans last
  · intro last
    cases result with
    | ok count =>
        obtain ⟨gone, kept, ends⟩ := finished count rfl
        cases ends.symm.trans last
    | error exc =>
        have failed := lastEvent _ (batched.failing exc rfl).2
        cases failed.symm.trans last

theorem deleteDirectory_attempt (slash : endsWith path ['/'] = true) :
    ∃ result events after, Ran conventions (deleteDirectory pages bucket path) world result events
        after ∧ Attempt bucket path world.store events result after := by
  obtain ⟨result, events, ran, paged⟩ := @paginate_ran conventions world
    (folderParams bucket path) (world.store.objectsUnder bucket (folderOf path)) pages
    (listing_ascending rfl) (pageSize_pos (by simp [folderParams, firstPage])) folder_remaining
  cases result with
  | error exc =>
      obtain ⟨genuine, last⟩ := paged.failing exc rfl
      refine ⟨_, _, _, ran_bind_error ran, attempt_failed paged.reading ?_ ?_ ?_⟩
      · intro removed refused claim
        obtain failed | ⟨keys, listed⟩ := last
        · cases failed.symm.trans claim
        · cases listed.symm.trans claim
      · exact fun missing => absurd missing genuine
      · intro claim
        obtain failed | ⟨keys, listed⟩ := last
        · cases failed.symm.trans claim
        · cases listed.symm.trans claim
  | ok replies =>
      have keys := pageKeys_shown (paged.shown replies rfl)
      by_cases empty : world.store.objectsUnder bucket (folderOf path) = []
      · have last := paged.empty replies rfl empty
        refine ⟨.error (.new .fileNotFoundError (deleteNotFound path)), events, world.store,
          ran_bind_result ran ?_, ?_⟩
        · rw [keys, empty]
          rfl
        · refine attempt_failed paged.reading ?_ (fun _ => ⟨rfl, fun _ => last⟩) fun _ => rfl
          intro removed refused claim
          cases last.symm.trans claim
      · obtain ⟨result, deletes, after, deleted, emptied, batched⟩ :=
          @deleteEach_ran conventions (world.after events world.store) bucket
            (deleteBatches ((world.store.objectsUnder bucket (folderOf path)).map S3Object.key)) 0
        refine ⟨result, events ++ deletes, after, ran_bind_ok ran ?_,
          attempt_batched slash paged.reading empty emptied batched⟩
        have live : (pageKeys replies).isEmpty = false := by
          rw [keys]
          simpa using empty
        rw [live, keys]
        exact deleted

/-- The answers to a delete of one key that is there. -/
theorem attempt_single {keys : List Str} {more : Bool} (plain : endsWith path ['/'] = false)
    (present : before.get? bucket path ≠ none) :
    Attempt bucket path before [.listed keys more, .deleted [path] []] (.ok 1)
      (before.eraseAll bucket [path]) := by
  have targeted (key : Str) : Targeted path key ↔ key = path := by
    rw [Targeted, if_neg (by simp [plain])]
  have removed : removedKeys [.listed keys more, .deleted [path] []] = [path] := rfl
  have refused : refusedKeys [.listed keys more, .deleted [path] []] = [] := rfl
  refine ⟨by simp, ?_, by simp [removed], ?_, ?_, ?_, ?_, ?_, ?_, ?_, ?_⟩
  · intro name key
    rw [get?_eraseAll, removed]
  · intro key member
    rw [removed] at member
    obtain rfl := List.mem_singleton.mp member
    exact ⟨(targeted _).mpr rfl, present⟩
  · intro count same
    obtain rfl := Except.ok.inj same
    rfl
  · intro count _ key member
    rw [refused] at member
    cases member
  · intro count _ key target _
    rw [removed]
    exact .inl (List.mem_singleton.mpr ((targeted key).mp target))
  · intro _ exc claim
    cases claim
  · intro exc claim
    cases claim
  · exact ⟨fun _ => ⟨[path], [], rfl⟩, fun _ => ⟨1, rfl⟩⟩
  · intro claim
    cases claim

theorem deleteSingle_attempt (plain : endsWith path ['/'] = false) :
    ∃ result events after, Ran conventions (deleteSingle bucket path) world result events
        after ∧ Attempt bucket path world.store events result after := by
  have whole := rstripSlash_eq_self plain
  have absentCase {keys : List Str} {more : Bool} :
      Attempt bucket path world.store [.listed keys more]
        (.error (.new .fileNotFoundError (deleteNotFound path))) world.store := by
    refine attempt_failed (reading_page keys more) nofun (fun _ => ⟨rfl, fun slash => ?_⟩)
      fun _ => rfl
    rw [plain] at slash
    cases slash
  have failedCase (fault : S3Fault) (events : List S3Event) (reading : Reading (events ++ [.failed])) :
      Attempt bucket path world.store (events ++ [.failed]) (.error fault.1) world.store := by
    refine attempt_failed reading ?_ (fun kind => absurd kind fault.2) ?_
    · intro removed refused claim
      rw [List.getLast?_concat] at claim
      cases claim
    · intro claim
      rw [List.getLast?_concat] at claim
      cases claim
  cases failing : world.fault with
  | some fault =>
      exact ⟨_, _, _, ran_bind_error (ran_fails failing),
        failedCase fault [] fun event member => .inl (List.mem_singleton.mp member)⟩
  | none =>
      have first := @ran_page conventions world (singleParams bucket path) _ failing
        single_remaining
      rw [deleteSingle]
      cases shown : (listPage conventions (pageSize (singleParams bucket path))
          ((world.store.objectsUnder bucket (rstripSlash path)).map .object)).contents with
      | nil =>
          refine ⟨_, _, _, ran_bind_result first ?_, absentCase⟩
          rw [shown]
          rfl
      | cons object rest =>
          by_cases same : object.key = rstripSlash path
          · have present := listed_present rfl shown
            rw [same, whole] at present
            generalize listedKeys : S3Event.listed _ _ = listing at first
            cases failingAgain : (world.after [listing] world.store).fault with
            | some fault =>
                refine ⟨_, _, _, ran_bind_ok first ?_, failedCase fault [listing] ?_⟩
                · rw [shown]
                  dsimp only
                  rw [if_pos same]
                  exact ran_bind_error (ran_fails failingAgain)
                · intro event member
                  obtain rfl | rfl : event = listing ∨ event = .failed := by simpa using member
                  · exact .inr ⟨_, _, listedKeys.symm⟩
                  · exact .inl rfl
            | none =>
                have removed : Ran conventions (S3Program.call (.deleteObject bucket path))
                    (world.after [listing] world.store) (.ok ()) [.deleted [path] []]
                    (world.store.eraseAll bucket [path]) := ran_serves failingAgain rfl
                refine ⟨.ok 1, _, _, ran_bind_ok first ?_, listedKeys ▸ attempt_single plain present⟩
                rw [shown]
                dsimp only
                rw [if_pos same, whole]
                exact ran_bind_result removed rfl
          · refine ⟨_, _, _, ran_bind_result first ?_, absentCase⟩
            rw [shown]
            dsimp only
            rw [if_neg same]
            rfl

theorem deletePathKeys_attempt :
    ∃ result events after, Ran conventions (deletePathKeys pages bucket path) world result events
        after ∧ Attempt bucket path world.store events result after := by
  cases slash : endsWith path ['/'] with
  | true =>
      rw [deletePathKeys, if_pos slash]
      exact deleteDirectory_attempt slash
  | false =>
      rw [deletePathKeys, if_neg (by simp [slash])]
      exact deleteSingle_attempt slash

end Attempts

section Retried

variable {unicode : Unicode} {conventions : Conventions} {world : LossyWorld} {bucket path : Str}
  {pages : Nat} {before between : Store} {roleName : Option Str}

def report (count : Nat) : DeleteResult :=
  ⟨lit "Successfully deleted " ++ lit (toString count) ++ lit " object(s)", count⟩

/-- What came before the attempt that ended the call. -/
inductive Restart (bucket path : Str) (before : Store) : List S3Event → Store → Prop where
  | first : Restart bucket path before [] before
  | again {events : List S3Event} {between : Store} (kept : S3Event.rebuilt ∉ events)
      (emptied : Emptied bucket before events between) (once : (removedKeys events).Nodup)
      (present : ∀ key ∈ removedKeys events, Targeted path key ∧ before.get? bucket key ≠ none)
      (single : endsWith path ['/'] = false → removedKeys events = []) :
      Restart bucket path before (events ++ [.rebuilt]) between

variable (unicode bucket path between) in
/-- The attempt that ended the call. A missing path is told as such unless its text reads
like an expiry. -/
inductive LastPart : List S3Event → Result DeleteResult → Store → Prop where
  | unconnected (fault : S3Fault) : LastPart [.failed] (.error fault.1) between
  | returned {events : List S3Event} {count : Nat} {store : Store}
      (attempt : Attempt bucket path between events (.ok count) store) :
      LastPart (.connected :: events) (.ok (report count)) store
  | raised {events : List S3Event} {exc final : PyError} {store : Store}
      (attempt : Attempt bucket path between events (.error exc) store)
      (kind : final.kind = .fileNotFoundError ↔
        exc.kind = .fileNotFoundError ∧ isExpiredCredentialsError unicode exc = false) :
      LastPart (.connected :: events) (.error final) store

/-- What the retry loop sees of a delete. -/
abbrev deleting (conventions : Conventions) (roleName : Option Str) (pages : Nat)
    (bucket path : Str) : Surroundings LossyWorld Unit DeleteResult :=
  handled (respond conventions) roleName (reported pages bucket path)

theorem connect_fails {fault : S3Fault} (failing : world.fault = some fault) :
    (deleting conventions roleName pages bucket path).getClient world =
      (.error fault.1, world.after [.failed] world.store) := by
  simp only [deleting, handled, respond, failing]
  rfl

theorem connect_succeeds (calm : world.fault = none) :
    (deleting conventions roleName pages bucket path).getClient world =
      (.ok (), world.after [.connected] world.store) := by
  simp only [deleting, handled, respond, calm]
  rfl

theorem forgets (world : LossyWorld) :
    (deleting conventions roleName pages bucket path).forgetClient world =
      world.after [.rebuilt] world.store := rfl

theorem reported_attempt (world : LossyWorld) :
    ∃ result events after,
      (deleting conventions roleName pages bucket path).callback () world =
        (result.map report, world.after events after) ∧
      Attempt bucket path world.store events result after := by
  obtain ⟨result, events, after, ran, attempt⟩ := @deletePathKeys_attempt conventions world
    bucket path pages
  refine ⟨result, events, after, ?_, attempt⟩
  cases result with
  | ok count => exact ran_bind_result ran rfl
  | error exc => exact ran_bind_error ran

theorem raised_kind {exc : PyError} {final : PyError}
    (same : (if isHttpException exc then (.error exc : Result DeleteResult)
      else raiseLastError unicode (some exc)) = .error final) :
    final.kind = .fileNotFoundError ↔
      exc.kind = .fileNotFoundError ∧ isExpiredCredentialsError unicode exc = false := by
  cases http : isHttpException exc with
  | true =>
      have other : exc.kind ≠ .fileNotFoundError := by
        intro kind
        rw [isHttpException, kind] at http
        cases http
      obtain rfl : exc = final := by simpa [http] using same
      simp [other]
  | false =>
      cases expired : isExpiredCredentialsError unicode exc with
      | true =>
          obtain rfl : PyError.raised .runtimeError expiredMessage (some exc) = final := by
            simpa [http, raiseLastError, expired] using same
          simp [PyError.kind]
      | false =>
          obtain rfl : exc = final := by simpa [http, raiseLastError, expired] using same
          simp

/-- An attempt that nothing follows. -/
theorem last_attempt {attempts : Nat} (lastError : Option PyError) (left : Nat) (world : LossyWorld)
    (final : attempts ≠ 0) :
    ∃ last result store,
      attemptLoop unicode (deleting conventions roleName pages bucket path) (left + 1) attempts
        lastError world = (result, world.after last store) ∧
      LastPart unicode bucket path world.store last result store := by
  cases failing : world.fault with
  | some fault =>
      exact ⟨_, _, _, loop_refused (connect_fails failing) (.inr final), .unconnected fault⟩
  | none =>
      have fetched := @connect_succeeds conventions world bucket path pages roleName failing
      obtain ⟨result, events, after, ran, attempt⟩ := @reported_attempt conventions bucket path
        pages roleName (world.after [.connected] world.store)
      rw [LossyWorld.after_after] at ran
      cases result with
      | ok count => exact ⟨_, _, _, loop_returned fetched ran, .returned attempt⟩
      | error exc =>
          obtain ⟨raised, same⟩ := @raised_error DeleteResult unicode exc
          refine ⟨_, .error raised, after, ?_, .raised attempt (raised_kind same)⟩
          rw [← same]
          exact loop_raised fetched ran (.inr (.inr final))

theorem retry_parts (world : LossyWorld) :
    ∃ earlier between last result store,
      Program.run (respond conventions)
        (executeWithS3Retry unicode roleName (reported pages bucket path)) world =
        (result, world.after (earlier ++ last) store) ∧
      Restart bucket path world.store earlier between ∧
      LastPart unicode bucket path between last result store := by
  have restarted (between : LossyWorld) (lastError : Option PyError) :=
    @last_attempt unicode conventions bucket path pages roleName 1 lastError 0
      (between.after [.rebuilt] between.store) Nat.one_ne_zero
  have loop := @run_executeWithS3Retry_loop _ _ unicode (respond conventions) roleName
    (reported pages bucket path) world
  rw [executeWithRetryInner] at loop
  cases failing : world.fault with
  | some fault =>
      have refused := @connect_fails conventions world bucket path pages roleName fault failing
      cases expired : isExpiredCredentialsError unicode fault.1 with
      | false =>
          refine ⟨[], world.store, _, _, _, loop.trans ?_, .first, .unconnected fault⟩
          exact loop_refused refused (.inl expired)
      | true =>
          obtain ⟨last, result, store, ended, part⟩ :=
            restarted (world.after [.failed] world.store) none
          refine ⟨[.failed, .rebuilt], world.store, last, result, store, loop.trans ?_, ?_, part⟩
          · rw [loop_refused_again refused expired, forgets, ended, LossyWorld.after_after,
              LossyWorld.after_after]
            rfl
          · exact @Restart.again _ _ _ [.failed] _ (by simp) (emptied_same _ _ rfl) (by simp [removedKeys])
              (by simp [removedKeys]) fun _ => rfl
  | none =>
      have fetched := @connect_succeeds conventions world bucket path pages roleName failing
      obtain ⟨result, events, after, ran, attempt⟩ := @reported_attempt conventions bucket path
        pages roleName (world.after [.connected] world.store)
      rw [LossyWorld.after_after] at ran
      cases result with
      | ok count =>
          exact ⟨[], world.store, _, _, _, loop.trans (loop_returned fetched ran), .first,
            .returned attempt⟩
      | error exc =>
          by_cases again : isHttpException exc = false ∧ isExpiredCredentialsError unicode exc = true
          · obtain ⟨last, result, store, ended, part⟩ :=
              restarted (world.after ([.connected] ++ events) after) (some exc)
            refine ⟨([.connected] ++ events) ++ [.rebuilt], after, last, result, store,
              loop.trans ?_, ?_, part⟩
            · rw [loop_raised_again fetched ran again.1 again.2, forgets, ended,
                LossyWorld.after_after, LossyWorld.after_after, ← List.append_assoc]
            · exact .again (by simpa using attempt.kept) attempt.emptied attempt.once
                attempt.present fun plain => attempt.single plain exc rfl
          · have final : isHttpException exc = true ∨
                isExpiredCredentialsError unicode exc = false ∨ (0 : Nat) ≠ 0 := by
              by_cases http : isHttpException exc = true
              · exact .inl http
              · exact .inr (.inl (by simpa [http] using again))
            obtain ⟨raised, same⟩ := @raised_error DeleteResult unicode exc
            refine ⟨[], world.store, _, .error raised, after, loop.trans ?_, .first,
              .raised attempt (raised_kind same)⟩
            rw [← same]
            exact loop_raised fetched ran final

end Retried

section Honesty

variable {unicode : Unicode} {conventions : Conventions} {bucket path : Str}
  {before between after : Store} {earlier events log : List S3Event}

/-- How many keys of the bucket a call has removed. -/
def removedBy (bucket : Str) (before after : Store) : Nat :=
  ((before.objects bucket).entries.filter fun entry =>
    (after.get? bucket entry.1).isNone).length

/-- What a delete says is what it did. -/
structure Honest (bucket path : Str) (before : Store) (result : Result DeleteResult)
    (after : Store) : Prop where
  returned : ∀ value, result = .ok value →
    (∀ key, Targeted path key → after.get? bucket key = none) ∧
      value.count = removedBy bucket before after
  missing : ∀ exc, result = .error exc → exc.kind = .fileNotFoundError →
    ∀ name key, after.get? name key = before.get? name key

/-- Keys were removed by an attempt after which the callback was run again. -/
def RemovedEarlier (log : List S3Event) : Prop :=
  ∃ earlier last, log = earlier ++ .rebuilt :: last ∧ removedKeys earlier ≠ []

/-- Keys were refused in the last attempt. -/
def RefusedLast (log : List S3Event) : Prop :=
  ∃ last, last <:+ log ∧ S3Event.rebuilt ∉ last ∧ refusedKeys last ≠ []

variable (unicode path log) in
/-- The answers of S3 under which a delete can be honest: the attempt that deletes to the
end has no key refused and none removed before it, and the attempt that finds nothing has
none removed before it, unless its own text passes for an expiry. -/
structure AnswersAllow : Prop where
  deleted : ∀ removed refused, log.getLast? = some (.deleted removed refused) →
    ¬ RemovedEarlier log ∧ ¬ RefusedLast log
  listed : log.getLast? = some (.listed [] false) →
    isExpiredError unicode .fileNotFoundError (deleteNotFound path) = false →
    ¬ RemovedEarlier log

theorem removedBy_eq (emptied : Emptied bucket before events after)
    (once : (removedKeys events).Nodup)
    (present : ∀ key ∈ removedKeys events, before.get? bucket key ≠ none) :
    removedBy bucket before after = (removedKeys events).length := by
  have keys : ((before.objects bucket).entries.map Prod.fst).Nodup :=
    List.pairwise_map.mpr ((before.objects bucket).ascending.imp ne_of_lt)
  let gone := (before.objects bucket).entries.filter fun entry =>
    (after.get? bucket entry.1).isNone
  have nodup : (gone.map Prod.fst).Nodup := keys.sublist (List.filter_sublist.map Prod.fst)
  have same : (gone.map Prod.fst).Perm (removedKeys events) := by
    refine (List.perm_ext_iff_of_nodup nodup once).mpr fun key => ?_
    constructor
    · intro member
      obtain ⟨entry, left, rfl⟩ := List.mem_map.mp member
      obtain ⟨stored, absent⟩ := List.mem_filter.mp left
      have found : before.get? bucket entry.1 = some entry.2 :=
        (OrderedMap.get?_eq_some_iff _).mpr stored
      by_contra survives
      rw [emptied, if_neg fun removed => survives removed.2, found] at absent
      cases absent
    · intro member
      obtain ⟨stored, found⟩ := Option.ne_none_iff_exists'.mp (present key member)
      refine List.mem_map.mpr ⟨(key, stored), List.mem_filter.mpr ⟨?_, ?_⟩, rfl⟩
      · exact (OrderedMap.get?_eq_some_iff _).mp found
      · rw [emptied, if_pos ⟨rfl, member⟩]
        rfl
  rw [← same.length_eq, List.length_map]
  rfl

theorem removedEarlier_iff (restart : Restart bucket path before earlier between)
    (kept : S3Event.rebuilt ∉ events) :
    RemovedEarlier (earlier ++ events) ↔ removedKeys earlier ≠ [] := by
  cases restart with
  | first =>
      constructor
      · rintro ⟨earlier, last, same, -⟩
        refine absurd ?_ kept
        rw [List.nil_append] at same
        rw [same]
        simp
      · exact fun claim => absurd rfl claim
  | @again first between early =>
      have gone : removedKeys (first ++ [.rebuilt]) = removedKeys first := by
        rw [removedKeys_append]
        exact List.append_nil _
      rw [gone, List.append_assoc]
      constructor
      · rintro ⟨earlier, last, same, removed⟩
        obtain ⟨rfl, -, -⟩ := (List.append_cons_inj_of_notMem early kept).mp same
        exact removed
      · exact fun removed => ⟨first, events, rfl, removed⟩

theorem refusedLast_iff (restart : Restart bucket path before earlier between)
    (kept : S3Event.rebuilt ∉ events) :
    RefusedLast (earlier ++ events) ↔ refusedKeys events ≠ [] := by
  constructor
  · rintro ⟨last, suffix, whole, refused⟩
    have within : last <:+ events := by
      cases restart with
      | first => exact suffix
      | @again first between =>
          rw [List.append_assoc] at suffix
          obtain inside | longer :=
            List.suffix_or_suffix_of_suffix suffix (List.suffix_append first (.rebuilt :: events))
          · obtain same | shorter := List.suffix_cons_iff.mp inside
            · rw [same] at whole
              exact absurd List.mem_cons_self whole
            · exact shorter
          · exact absurd (longer.subset List.mem_cons_self) whole
    obtain ⟨front, rfl⟩ := within
    rw [refusedKeys_append]
    exact fun none => refused (List.append_eq_nil_iff.mp none).2
  · exact fun refused => ⟨events, List.suffix_append earlier events, kept, refused⟩

/-- What the earlier attempts removed was there, and is gone for the last one. -/
theorem Restart.emptied (restart : Restart bucket path before earlier between) :
    Emptied bucket before earlier between ∧ (removedKeys earlier).Nodup ∧
      ∀ key ∈ removedKeys earlier, Targeted path key ∧ before.get? bucket key ≠ none := by
  cases restart with
  | first => exact ⟨emptied_same _ _ rfl, List.nodup_nil, nofun⟩
  | @again first between kept emptied once present =>
      have gone : removedKeys (first ++ [.rebuilt]) = removedKeys first := by
        rw [removedKeys_append]
        exact List.append_nil _
      rw [gone]
      exact ⟨emptied.trans (emptied_same _ _ rfl), once, present⟩

theorem Restart.single (restart : Restart bucket path before earlier between)
    (plain : endsWith path ['/'] = false) : removedKeys earlier = [] := by
  cases restart with
  | first => rfl
  | again kept emptied once present single =>
      rw [removedKeys_append, single plain]
      rfl

/-- The whole call, from the attempt that ended it. -/
theorem whole_removed (restart : Restart bucket path before earlier between)
    {result : Result Nat} (attempt : Attempt bucket path between events result after) :
    Emptied bucket before (earlier ++ events) after ∧
      removedBy bucket before after = (removedKeys earlier).length + (removedKeys events).length := by
  obtain ⟨emptied, once, present⟩ := restart.emptied
  have whole := emptied.trans attempt.emptied
  refine ⟨whole, ?_⟩
  have still (key : Str) (member : key ∈ removedKeys events) :
      key ∉ removedKeys earlier ∧ before.get? bucket key ≠ none := by
    have there := (attempt.present key member).2
    rw [emptied] at there
    split_ifs at there with gone
    · exact absurd rfl there
    · exact ⟨fun early => gone ⟨rfl, early⟩, there⟩
  rw [removedBy_eq whole, removedKeys_append, List.length_append]
  · rw [removedKeys_append, List.nodup_append]
    exact ⟨once, attempt.once, fun key early other late same =>
      (still other late).1 (same ▸ early)⟩
  · intro key member
    rw [removedKeys_append] at member
    obtain early | late := List.mem_append.mp member
    · exact (present key early).2
    · exact (still key late).2

/-- A delete that returns is honest when nothing was refused now or removed before. -/
theorem honest_returned_iff (restart : Restart bucket path before earlier between) {count : Nat}
    (attempt : Attempt bucket path between events (.ok count) after) :
    Honest bucket path before (.ok (report count)) after ↔
      removedKeys earlier = [] ∧ refusedKeys events = [] := by
  obtain ⟨emptied, -, present⟩ := restart.emptied
  obtain ⟨whole, removed⟩ := whole_removed restart attempt
  have counted := attempt.counted count rfl
  constructor
  · intro honest
    obtain ⟨gone, said⟩ := honest.returned _ rfl
    have none : refusedKeys events = [] := by
      by_contra some
      obtain ⟨key, member⟩ := List.exists_mem_of_ne_nil _ some
      obtain ⟨target, there⟩ := attempt.refused count rfl key member
      exact there (gone key target)
    refine ⟨?_, none⟩
    have total : count = (removedKeys earlier).length + (removedKeys events).length :=
      said.trans removed
    rw [none, List.length_nil, Nat.add_zero] at counted
    exact List.length_eq_zero_iff.mp (by omega)
  · rintro ⟨clean, none⟩
    refine ⟨fun value same => ?_, nofun⟩
    obtain rfl := Except.ok.inj same
    refine ⟨fun key target => ?_, ?_⟩
    · rw [attempt.emptied]
      split_ifs with gone
      · rfl
      · by_contra there
        obtain removed | refused := attempt.covered count rfl key target there
        · exact gone ⟨rfl, removed⟩
        · rw [none] at refused
          cases refused
    · rw [removed, clean]
      change count = _
      rw [counted, none]
      simp

/-- A path that is told missing is honest when nothing was removed before. -/
theorem honest_missing_iff (restart : Restart bucket path before earlier between)
    {exc final : PyError} (kind : final.kind = .fileNotFoundError)
    (attempt : Attempt bucket path between events (.error exc) after)
    (nothing : removedKeys events = []) :
    Honest bucket path before (.error final) after ↔ removedKeys earlier = [] := by
  obtain ⟨-, -, present⟩ := restart.emptied
  obtain ⟨whole, -⟩ := whole_removed restart attempt
  constructor
  · intro honest
    by_contra some
    obtain ⟨key, member⟩ := List.exists_mem_of_ne_nil _ some
    have same := honest.missing final rfl kind bucket key
    rw [whole, if_pos ⟨rfl, by rw [removedKeys_append]; exact List.mem_append_left _ member⟩] at same
    exact (present key member).2 same.symm
  · intro clean
    refine ⟨nofun, fun _ _ _ name key => ?_⟩
    rw [whole, removedKeys_append, clean, nothing]
    simp

theorem last_connected {event : S3Event} (other : event ≠ .connected) :
    (earlier ++ .connected :: events).getLast? = some event ↔ events.getLast? = some event := by
  rw [List.getLast?_append, List.getLast?_cons, Option.some_or]
  cases ends : events.getLast? with
  | none => simpa using fun same => absurd same.symm other
  | some last => simp

theorem honest_parts_iff {last : List S3Event} {result : Result DeleteResult}
    (restart : Restart bucket path before earlier between)
    (part : LastPart unicode bucket path between last result after) :
    Honest bucket path before result after ↔ AnswersAllow unicode path (earlier ++ last) := by
  cases part with
  | unconnected fault =>
      have ends : (earlier ++ [S3Event.failed]).getLast? = some .failed := List.getLast?_concat
      constructor
      · refine fun _ => ⟨fun removed refused claim => ?_, fun claim => ?_⟩
        · cases ends.symm.trans claim
        · cases ends.symm.trans claim
      · refine fun _ => ⟨nofun, fun exc same kind => ?_⟩
        obtain rfl := Except.error.inj same
        exact absurd kind fault.2
  | @returned events count _ attempt =>
      have kept : S3Event.rebuilt ∉ S3Event.connected :: events := by simpa using attempt.kept
      obtain ⟨removed, refused, ends⟩ := attempt.deletedLast.mp ⟨count, rfl⟩
      have last := (@last_connected earlier _ _ (by simp)).mpr ends
      rw [honest_returned_iff restart attempt]
      constructor
      · rintro ⟨clean, none⟩
        refine ⟨fun _ _ _ => ⟨?_, ?_⟩, fun claim => ?_⟩
        · exact fun early => (removedEarlier_iff restart kept).mp early clean
        · exact fun late => (refusedLast_iff restart kept).mp late none
        · cases last.symm.trans claim
      · intro allow
        obtain ⟨clean, none⟩ := allow.deleted _ _ last
        rw [removedEarlier_iff restart kept, not_not] at clean
        rw [refusedLast_iff restart kept, not_not] at none
        exact ⟨clean, none⟩
  | @raised events exc final _ attempt kind =>
      have kept : S3Event.rebuilt ∉ S3Event.connected :: events := by simpa using attempt.kept
      have deletes : ∀ removed refused,
          (earlier ++ .connected :: events).getLast? ≠ some (.deleted removed refused) := by
        intro removed refused claim
        obtain ⟨count, impossible⟩ :=
          attempt.deletedLast.mpr ⟨removed, refused, (last_connected (by simp)).mp claim⟩
        cases impossible
      by_cases missing : final.kind = .fileNotFoundError
      · obtain ⟨absent, lasting⟩ := kind.mp missing
        obtain ⟨rfl, nothing, listing⟩ := attempt.missing exc rfl absent
        rw [honest_missing_iff restart missing attempt nothing]
        constructor
        · intro clean
          refine ⟨fun removed refused claim => absurd claim (deletes removed refused), fun _ _ => ?_⟩
          exact fun early => (removedEarlier_iff restart kept).mp early clean
        · intro allow
          cases slash : endsWith path ['/'] with
          | false => exact restart.single slash
          | true =>
              have last := (@last_connected earlier _ _ (by simp)).mpr (listing slash)
              have clean := allow.listed last lasting
              rwa [removedEarlier_iff restart kept, not_not] at clean
      · constructor
        · refine fun _ => ⟨fun removed refused claim => absurd claim (deletes removed refused),
            fun claim lasting => ?_⟩
          obtain ⟨raised, same, absent⟩ := attempt.listedLast ((last_connected (by simp)).mp claim)
          obtain rfl := Except.error.inj same
          obtain ⟨rfl, -, -⟩ := attempt.missing _ rfl absent
          exact absurd (kind.mpr ⟨absent, lasting⟩) missing
        · refine fun _ => ⟨nofun, fun raised same absent => ?_⟩
          obtain rfl := Except.error.inj same
          exact absurd absent missing

variable (unicode conventions) in
/-- One delete, from its gate on, against a store that may refuse keys and fail calls. -/
def runDelete (config : Dict) (pages : Nat) (role : Option Str) (bucket path : Str)
    (user : UserDict) (store : Store) (faults : Nat → Option S3Fault)
    (refuses : Nat → Str → Bool) : Result DeleteResult × LossyWorld :=
  Program.run (respond conventions) (deleteObjectForRole unicode config pages role bucket path user)
    ⟨store, faults, refuses, []⟩

theorem refused_gate {exc : PyError} (store : Store) :
    Honest bucket path store (.error exc) store ↔ AnswersAllow unicode path [] :=
  ⟨fun _ => ⟨nofun, nofun⟩, fun _ => ⟨nofun, fun _ _ _ _ _ => rfl⟩⟩

theorem runDelete_permitted {config : Dict} {pages : Nat} {role validated : Option Str}
    {user : UserDict} (store : Store) (faults : Nat → Option S3Fault) (refuses : Nat → Str → Bool)
    (permitted : validateStorageAccess config role bucket user path = .ok validated) :
    runDelete unicode conventions config pages role bucket path user store faults refuses =
      Program.run (respond conventions)
        (executeWithS3Retry unicode validated (reported pages bucket path))
        ⟨store, faults, refuses, []⟩ := by
  unfold runDelete deleteObjectForRole gatedCall
  rw [permitted]
  rfl

theorem delete_honest_iff (unicode : Unicode) (conventions : Conventions) (config : Dict)
    (pages : Nat) (role : Option Str) (bucket path : Str) (user : UserDict) (store : Store)
    (faults : Nat → Option S3Fault) (refuses : Nat → Str → Bool) :
    Honest bucket path store
        (runDelete unicode conventions config pages role bucket path user store faults refuses).1
        (runDelete unicode conventions config pages role bucket path user store faults
          refuses).2.store ↔
      AnswersAllow unicode path
        (runDelete unicode conventions config pages role bucket path user store faults
          refuses).2.log := by
  cases permitted : validateStorageAccess config role bucket user path with
  | error exc =>
      have stopped : runDelete unicode conventions config pages role bucket path user store faults
          refuses = (.error exc, ⟨store, faults, refuses, []⟩) := by
        unfold runDelete deleteObjectForRole gatedCall
        rw [permitted]
        rfl
      rw [stopped]
      exact refused_gate store
  | ok validated =>
      obtain ⟨earlier, between, last, result, after, ran, restart, part⟩ :=
        @retry_parts unicode conventions bucket path pages validated ⟨store, faults, refuses, []⟩
      rw [runDelete_permitted store faults refuses permitted, ran, LossyWorld.after_log,
        List.nil_append]
      exact honest_parts_iff restart part

/-- A bucket with one key, which S3 will not delete. -/
def lockedStore : Store where
  bucketNames := [lit "data"]
  objects _ := OrderedMap.empty.insert (lit "d/a") ⟨[1], none, []⟩
  now := []

theorem refused_key_counted :
    ¬ ∀ (unicode : Unicode) (conventions : Conventions) (config : Dict) (pages : Nat)
        (role : Option Str) (bucket path : Str) (user : UserDict) (store : Store)
        (faults : Nat → Option S3Fault) (refuses : Nat → Str → Bool),
        Honest bucket path store
          (runDelete unicode conventions config pages role bucket path user store faults refuses).1
          (runDelete unicode conventions config pages role bucket path user store faults
            refuses).2.store := by
  intro always
  have honest := always .ascii .plain [] 1 none (lit "data") (lit "d/") ⟨true, [], none⟩
    lockedStore (fun _ => none) (fun _ key => key == lit "d/a")
  have said : (runDelete .ascii .plain [] 1 none (lit "data") (lit "d/") ⟨true, [], none⟩
      lockedStore (fun _ => none) (fun _ key => key == lit "d/a")).1 = .ok (report 1) := rfl
  have target : Targeted (lit "d/") (lit "d/a") := by
    rw [Targeted, if_pos (by decide)]
    decide
  have gone := (honest.returned _ said).1 (lit "d/a") target
  have there : (lockedStore.eraseAll (lit "data") []).get? (lit "data") (lit "d/a") ≠ none := by
    decide
  exact there gone

end Honesty

end S3Manager.Storage.Lossy
