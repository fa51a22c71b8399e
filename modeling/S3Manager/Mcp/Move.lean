import S3Manager.Mcp.Tools
import S3Manager.Storage.DeleteRuns

/-! A move, which is `copy_object` with `delete_source`, over a store in which any
call may fail: what it keeps of the source, and what else it deletes. -/

set_option autoImplicit false

namespace S3Manager.Mcp

open Python Access Storage Library

structure Move where
  role : Option Str
  sourceBucket : Str
  sourcePath : Str
  destBucket : Str
  destPath : Str

namespace Move

def source (move : Move) : Str × Str :=
  (move.sourceBucket, move.sourcePath)

def dest (move : Move) : Str × Str :=
  (move.destBucket, move.destPath)

section Law

/-- The object has the content that `former` had. -/
def Holds (store : Store) (place : Str × Str) (former : Stored) : Prop :=
  ∃ stored, store.get? place.1 place.2 = some stored ∧ stored.body = former.body ∧
    stored.contentType = former.contentType

/-- What a reported move has done. -/
structure Moved (move : Move) (before after : Store) : Prop where
  kept : ∃ former, before.get? move.sourceBucket move.sourcePath = some former ∧
    Holds after move.dest former
  gone : move.source ≠ move.dest → after.get? move.sourceBucket move.sourcePath = none
  frame : ∀ bucket key, (bucket, key) ≠ move.source → (bucket, key) ≠ move.dest →
    after.get? bucket key = before.get? bucket key

/-- What a move that failed has left. -/
structure LeftSafe (move : Move) (before after : Store) : Prop where
  kept : ∀ former, before.get? move.sourceBucket move.sourcePath = some former →
    Holds after move.source former ∨ Holds after move.dest former
  frame : ∀ bucket key, (bucket, key) ≠ move.dest →
    after.get? bucket key = before.get? bucket key

def Outcome (move : Move) (before : Store) : Result Unit × World → Prop
  | (.ok _, after) => move.Moved before after.store
  | (.error _, after) => move.LeftSafe before after.store

end Law

variable (unicode : Unicode) (config : Dict) (conventions : Conventions) (pages : Nat)
  (token : Token) (user : UserDict) (move : Move)

def program : S3Program Unit :=
  copyObject unicode config pages token move.role move.sourceBucket move.sourcePath
    move.destBucket move.destPath user true

/-- The move is kept safe at every point where a call may fail. -/
def Safe (store : Store) : Prop :=
  ∀ faults, move.Outcome store
    ((move.program unicode config pages token user).run conventions ⟨store, faults⟩)

/-- The checks before S3 let the move through. -/
structure Granted : Prop where
  writable : assertWriteAllowed token .copyObject config = .ok ()
  movable : assertMoveAllowed config true = .ok ()
  source : ∃ validated, validateStorageAccess config move.role move.sourceBucket user
    move.sourcePath = .ok validated
  dest : ∃ validated, validateStorageAccess config move.role move.destBucket user
    move.destPath = .ok validated

/-- The key is the source itself, whenever it is in the folder that a source with
a trailing slash names, before the copy or after it. -/
def FolderIsSource (store : Store) : Prop :=
  endsWith move.sourcePath ['/'] = true → ∀ key, folderOf move.sourcePath <+: key →
    (store.get? move.sourceBucket key ≠ none ∨ (move.sourceBucket, key) = move.dest) →
    key = move.sourcePath

variable {unicode config conventions pages token user move} {store : Store}

section Refused

theorem run_refused (refused : ¬ move.Granted config token user) :
    ∃ exc, move.program unicode config pages token user = S3Program.ofResult (.error exc) := by
  unfold program copyObject
  cases writable : assertWriteAllowed token .copyObject config with
  | error exc => exact ⟨exc, rfl⟩
  | ok _ =>
      cases movable : assertMoveAllowed config true with
      | error exc => exact ⟨exc, rfl⟩
      | ok _ =>
          unfold copyObjectForRole
          cases source : validateStorageAccess config move.role move.sourceBucket user
              move.sourcePath with
          | error exc => exact ⟨exc, rfl⟩
          | ok validated =>
              cases dest : validateStorageAccess config move.role move.destBucket user
                  move.destPath with
              | error exc => exact ⟨exc, rfl⟩
              | ok other =>
                  exact absurd ⟨writable, movable, ⟨_, source⟩, ⟨_, dest⟩⟩ refused

theorem leftSafe_refl : move.LeftSafe store store where
  kept former present := .inl ⟨former, present, rfl, rfl⟩
  frame _ _ _ := rfl

theorem safe_of_refused (refused : ¬ move.Granted config token user) :
    move.Safe unicode config conventions pages token user store := by
  intro faults
  obtain ⟨exc, shape⟩ := @run_refused unicode config pages token user move refused
  rw [shape]
  exact leftSafe_refl

end Refused

section Copy

/-- The store after the copy of `former`. -/
def copied (move : Move) (store : Store) (former : Stored) : Store :=
  store.put move.destBucket move.destPath former.body former.contentType

def copyProgram (unicode : Unicode) (config : Dict) (user : UserDict) (move : Move) :
    S3Program Unit :=
  copyObjectForRole unicode config move.role move.sourceBucket move.sourcePath move.destBucket
    move.destPath user

def deleteProgram (unicode : Unicode) (config : Dict) (pages : Nat) (user : UserDict)
    (move : Move) : S3Program Unit :=
  deleteMoved unicode config pages move.role move.sourceBucket move.sourcePath user true

theorem program_granted (granted : move.Granted config token user) :
    move.program unicode config pages token user =
      copyProgram unicode config user move >>= fun _ =>
        deleteProgram unicode config pages user move := by
  simp only [program, copyObject, granted.writable, granted.movable]
  rfl

theorem copyProgram_granted (granted : move.Granted config token user) :
    ∃ validated, copyProgram unicode config user move =
      executeWithS3Retry unicode validated
        ((S3Program.call (.copyObject move.destBucket move.destPath move.sourceBucket
          move.sourcePath)).mapError
            (missingAs (lit "Source object '" ++ move.sourcePath ++ lit "' not found in bucket '" ++
              move.sourceBucket ++ ['\'']))) := by
  obtain ⟨first, source⟩ := granted.source
  obtain ⟨second, dest⟩ := granted.dest
  have checked := (validateStorageAccess_ok_iff.mp source).1
  refine ⟨first, ?_⟩
  simp only [copyProgram, copyObjectForRole, source, dest, checked]
  rfl

theorem deleteProgram_granted (granted : move.Granted config token user) :
    ∃ validated, deleteProgram unicode config pages user move =
      (executeWithS3Retry unicode validated (do
        let deleted ← deletePathKeys pages move.sourceBucket move.sourcePath
        pure (⟨lit "Successfully deleted " ++ lit (toString deleted) ++ lit " object(s)",
          deleted⟩ : DeleteResult))) >>= fun _ => pure () := by
  obtain ⟨validated, source⟩ := granted.source
  refine ⟨validated, ?_⟩
  simp only [deleteProgram, deleteMoved, if_true, deleteObjectForRole, gatedCall, source]
  rfl

theorem copy_answer {former : Stored}
    (present : store.get? move.sourceBucket move.sourcePath = some former) :
    store.answer conventions (.copyObject move.destBucket move.destPath move.sourceBucket
      move.sourcePath) = (.ok (), move.copied store former) := by
  simp only [Store.answer, present]
  rfl

theorem atomic_copy (granted : move.Granted config token user) :
    Atomic conventions (copyProgram unicode config user move) store fun _ after =>
      ∃ former, store.get? move.sourceBucket move.sourcePath = some former ∧
        after = move.copied store former := by
  obtain ⟨validated, shape⟩ := @copyProgram_granted unicode config token user move granted
  rw [shape]
  refine atomic_retry (atomic_mapError ?_)
  cases present : store.get? move.sourceBucket move.sourcePath with
  | some former =>
      exact atomic_mono (atomic_answered (copy_answer present)) fun _ after same =>
        ⟨former, rfl, same⟩
  | none =>
      have missing : store.answer conventions (.copyObject move.destBucket move.destPath
          move.sourceBucket move.sourcePath) = (s3Error "NoSuchKey" 404, store) := by
        simp only [Store.answer, present]
      refine atomic_call (fun exc after ended => ?_) fun value after ended => ?_
      · rw [missing] at ended
        exact (Prod.mk.inj ended).2.symm
      · rw [missing] at ended
        cases (Prod.mk.inj ended).1

end Copy

section Sufficient

theorem copied_dest (former : Stored) :
    Holds (move.copied store former) move.dest former :=
  ⟨⟨former.body, former.contentType, store.now⟩, by simp [copied, get?_put, dest], rfl, rfl⟩

theorem copied_other {former : Stored} {bucket key : Str} (other : (bucket, key) ≠ move.dest) :
    (move.copied store former).get? bucket key = store.get? bucket key := by
  rw [copied, get?_put, if_neg]
  exact fun same => other (Prod.ext same.1 same.2)

theorem copied_source {former : Stored}
    (present : store.get? move.sourceBucket move.sourcePath = some former) :
    ∃ stored, (move.copied store former).get? move.sourceBucket move.sourcePath = some stored := by
  by_cases same : move.source = move.dest
  · obtain ⟨stored, found, -⟩ := @copied_dest move store former
    rw [← same] at found
    exact ⟨stored, found⟩
  · exact ⟨former, (copied_other same).trans present⟩

theorem atomic_delete (granted : move.Granted config token user) {former : Stored}
    (present : store.get? move.sourceBucket move.sourcePath = some former)
    (alone : move.FolderIsSource store) :
    Atomic conventions (deleteProgram unicode config pages user move) (move.copied store former)
      fun _ after =>
        after = (move.copied store former).eraseAll move.sourceBucket [move.sourcePath] := by
  obtain ⟨validated, shape⟩ := @deleteProgram_granted unicode config pages token user move granted
  obtain ⟨stored, found⟩ := copied_source present
  rw [shape]
  refine atomic_then_pure (atomic_retry (atomic_then_pure (atomic_deletePathKeys found ?_)))
  intro slash key under live
  refine alone slash key under ?_
  by_cases same : (move.sourceBucket, key) = move.dest
  · exact .inr same
  · rw [copied_other same] at live
    exact .inl live

theorem moved_of_erased {former : Stored} (distinct : move.source ≠ move.dest)
    (present : store.get? move.sourceBucket move.sourcePath = some former) :
    move.Moved store
      ((move.copied store former).eraseAll move.sourceBucket [move.sourcePath]) where
  kept := by
    obtain ⟨stored, found, same⟩ := @copied_dest move store former
    refine ⟨former, present, stored, ?_, same⟩
    rw [get?_eraseAll, if_neg]
    · exact found
    · rintro ⟨sameBucket, sameKey⟩
      exact distinct (Prod.ext sameBucket.symm (List.mem_singleton.mp sameKey).symm)
  gone _ := by
    rw [get?_eraseAll, if_pos ⟨rfl, List.mem_singleton_self _⟩]
  frame bucket key notSource notDest := by
    rw [get?_eraseAll, if_neg]
    · exact copied_other notDest
    · exact fun same => notSource (Prod.ext same.1 (List.mem_singleton.mp same.2))

theorem leftSafe_copied (former : Stored)
    (present : store.get? move.sourceBucket move.sourcePath = some former) :
    move.LeftSafe store (move.copied store former) where
  kept other found := by
    obtain rfl : former = other := Option.some.inj (present.symm.trans found)
    exact .inr (copied_dest former)
  frame bucket key notDest := copied_other notDest

theorem safe_of_distinct (granted : move.Granted config token user)
    (distinct : move.source ≠ move.dest) (alone : move.FolderIsSource store) :
    move.Safe unicode config conventions pages token user store := by
  intro faults
  have copying := @atomic_copy unicode config conventions token user move store granted faults
  rw [program_granted granted, run_bind]
  cases ran : (copyProgram unicode config user move).run conventions ⟨store, faults⟩ with
  | mk result after =>
      rw [ran] at copying
      obtain ⟨left, remaining⟩ := after
      cases result with
      | error exc =>
          obtain rfl : left = store := copying
          exact leftSafe_refl
      | ok _ =>
          obtain ⟨former, present, rfl⟩ := copying
          have deleting := @atomic_delete unicode config conventions pages token user move store
            granted former present alone remaining
          dsimp only
          cases ended : (deleteProgram unicode config pages user move).run conventions
              ⟨move.copied store former, remaining⟩ with
          | mk final last =>
              rw [ended] at deleting
              obtain ⟨lastStore, lastFaults⟩ := last
              cases final with
              | error exc =>
                  obtain rfl : lastStore = move.copied store former := deleting
                  exact leftSafe_copied former present
              | ok _ =>
                  obtain rfl : lastStore = (move.copied store former).eraseAll move.sourceBucket
                    [move.sourcePath] := deleting
                  exact moved_of_erased distinct present

/-- Without a source there is nothing to copy, so the move never gets to its delete. -/
theorem safe_of_missing (granted : move.Granted config token user)
    (missing : store.get? move.sourceBucket move.sourcePath = none) :
    move.Safe unicode config conventions pages token user store := by
  intro faults
  have copying := @atomic_copy unicode config conventions token user move store granted faults
  rw [program_granted granted, run_bind]
  cases ran : (copyProgram unicode config user move).run conventions ⟨store, faults⟩ with
  | mk result after =>
      rw [ran] at copying
      obtain ⟨left, remaining⟩ := after
      cases result with
      | error exc =>
          obtain rfl : left = store := copying
          exact leftSafe_refl
      | ok _ =>
          obtain ⟨former, present, -⟩ := copying
          rw [missing] at present
          cases present

end Sufficient

section Necessary

theorem program_returns (granted : move.Granted config token user) {former : Stored}
    (present : store.get? move.sourceBucket move.sourcePath = some former)
    (enough : (store.objects move.sourceBucket).entries.length ≤ pages) :
    ∃ after, Returns conventions (move.program unicode config pages token user) store () after ∧
      ∀ name key,
        (name = move.sourceBucket ∧ Targeted move.sourcePath key → after.get? name key = none) ∧
        (¬ (name = move.sourceBucket ∧ Targeted move.sourcePath key) →
          after.get? name key = (move.copied store former).get? name key) := by
  obtain ⟨first, copying⟩ := @copyProgram_granted unicode config token user move granted
  obtain ⟨second, deleting⟩ := @deleteProgram_granted unicode config pages token user move granted
  obtain ⟨stored, found⟩ := copied_source present
  have room : ((move.copied store former).objects move.sourceBucket).entries.length ≤
      pages + 1 := by
    unfold copied Store.put Store.setBucket
    dsimp only
    split
    · next same =>
        refine (OrderedMap.length_insertEntry_le _ _ _).trans ?_
        rw [← same]
        exact Nat.succ_le_succ enough
    · exact Nat.le_succ_of_le enough
  obtain ⟨count, after, ran, erased⟩ := @deletePathKeys_returns conventions
    (move.copied store former) move.sourceBucket move.sourcePath pages stored found room
  refine ⟨after, ?_, erased⟩
  rw [program_granted granted, copying, deleting]
  exact returns_bind (returns_retry (returns_mapError (returns_call (copy_answer present))))
    (returns_bind (returns_retry (returns_bind ran (returns_pure _))) (returns_pure ()))

theorem safe_only_distinct (granted : move.Granted config token user) {former : Stored}
    (present : store.get? move.sourceBucket move.sourcePath = some former)
    (enough : (store.objects move.sourceBucket).entries.length ≤ pages)
    (safe : move.Safe unicode config conventions pages token user store) :
    move.source ≠ move.dest ∧ move.FolderIsSource store := by
  obtain ⟨after, ran, erased⟩ := @program_returns unicode config conventions pages token user move
    store granted former present enough
  have outcome := safe fun _ => none
  have ran' : (move.program unicode config pages token user).run conventions
      ⟨store, fun _ => none⟩ = (.ok (), calm after) := ran
  rw [ran'] at outcome
  have moved : move.Moved store after := outcome
  have destKept : ¬ (move.destBucket = move.sourceBucket ∧
      Targeted move.sourcePath move.destPath) := by
    intro target
    obtain ⟨_, -, stored, found, -⟩ := moved.kept
    have gone := (erased move.destBucket move.destPath).1 target
    rw [show after.get? move.destBucket move.destPath = some stored from found] at gone
    cases gone
  constructor
  · intro same
    obtain ⟨sameBucket, samePath⟩ := Prod.mk.inj same
    exact destKept ⟨sameBucket.symm, samePath ▸ targeted_self _⟩
  · intro slash key under occupied
    have target : Targeted move.sourcePath key := by
      rw [Targeted, if_pos slash]
      exact under
    by_contra other
    rcases occupied with live | same
    · have notDest : (move.sourceBucket, key) ≠ move.dest := by
        intro same
        obtain ⟨sameBucket, sameKey⟩ := Prod.mk.inj same
        exact destKept ⟨sameBucket.symm, sameKey ▸ target⟩
      have notSource : (move.sourceBucket, key) ≠ move.source :=
        fun same => other (Prod.mk.inj same).2
      have kept := moved.frame move.sourceBucket key notSource notDest
      rw [(erased move.sourceBucket key).1 ⟨rfl, target⟩] at kept
      exact live kept.symm
    · obtain ⟨sameBucket, sameKey⟩ := Prod.mk.inj same
      exact destKept ⟨sameBucket.symm, sameKey ▸ target⟩

/-- A move loses nothing exactly when it is refused, or finds no source, or goes to
another object from a source that names nothing but itself. -/
theorem safe_iff (unicode : Unicode) (config : Dict) (conventions : Conventions) (pages : Nat)
    (token : Token) (user : UserDict) (move : Move) (store : Store)
    (enough : (store.objects move.sourceBucket).entries.length ≤ pages) :
    move.Safe unicode config conventions pages token user store ↔
      ¬ move.Granted config token user ∨
        store.get? move.sourceBucket move.sourcePath = none ∨
        (move.source ≠ move.dest ∧ move.FolderIsSource store) := by
  by_cases granted : move.Granted config token user
  · cases present : store.get? move.sourceBucket move.sourcePath with
    | none => simp [safe_of_missing granted present]
    | some former =>
        simp only [granted, not_true_eq_false, reduceCtorEq, false_or]
        exact ⟨safe_only_distinct granted present enough,
          fun apart => safe_of_distinct granted apart.1 apart.2⟩
  · simp [granted, safe_of_refused granted]

/-- A role without restrictions, and a bucket with one file and one folder marker. -/
def openConfig : Dict :=
  [(lit "roles", .arr [.obj [(lit "name", .str (lit "team")), (lit "type", .str (lit "default"))]])]

def teamUser : UserDict where
  isAdmin := false
  allowedRoles := [lit "team"]
  defaultRole := none

def writeToken : Token where
  isReadOnly := false
  maxReadBytes := 0

def smallStore : Store where
  bucketNames := [lit "data"]
  objects _ := (OrderedMap.empty.insert (lit "a.txt") ⟨[1], none, []⟩).insert (lit "d/")
    ⟨[], none, []⟩
  now := []

def within (sourcePath destPath : Str) : Move where
  role := some (lit "team")
  sourceBucket := lit "data"
  sourcePath := sourcePath
  destBucket := lit "data"
  destPath := destPath

theorem safe_rename :
    (within (lit "a.txt") (lit "b.txt")).Safe Unicode.ascii openConfig Conventions.plain 5
        writeToken teamUser smallStore ↔
      ¬ (within (lit "a.txt") (lit "b.txt")).Granted openConfig writeToken teamUser ∨
        smallStore.get? (lit "data") (lit "a.txt") = none ∨
        ((within (lit "a.txt") (lit "b.txt")).source ≠ (within (lit "a.txt") (lit "b.txt")).dest ∧
          (within (lit "a.txt") (lit "b.txt")).FolderIsSource smallStore) :=
  safe_iff Unicode.ascii openConfig Conventions.plain 5 writeToken teamUser
    (within (lit "a.txt") (lit "b.txt")) smallStore (by decide)

/-- A move of an object onto itself is granted and deletes the object. -/
theorem self_move_loses :
    ¬ ∀ (unicode : Unicode) (config : Dict) (conventions : Conventions) (pages : Nat)
        (token : Token) (user : UserDict) (move : Move) (store : Store),
        (store.objects move.sourceBucket).entries.length ≤ pages →
        move.Safe unicode config conventions pages token user store := by
  intro all
  have granted : (within (lit "a.txt") (lit "a.txt")).Granted openConfig writeToken teamUser :=
    ⟨rfl, rfl, ⟨_, rfl⟩, ⟨_, rfl⟩⟩
  have present : smallStore.get? (lit "data") (lit "a.txt") = some ⟨[1], none, []⟩ := by decide
  have safe := all Unicode.ascii openConfig Conventions.plain 5 writeToken teamUser
    (within (lit "a.txt") (lit "a.txt")) smallStore (by decide)
  exact (safe_only_distinct granted present (by decide) safe).1 rfl

end Necessary

end Move

end S3Manager.Mcp
