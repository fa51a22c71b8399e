import S3Manager.Storage.StoreRuns

/-! One call of `list_objects_recursive_for_role` over a store: it reads pages of
at most 1000 keys until it has the files it was asked for, and it can only go on
behind a page. -/

set_option autoImplicit false

namespace S3Manager.Storage

open Python Library

/-- The objects that are not markers. -/
def plainObjects (objects : List S3Object) : List S3Object :=
  objects.filter fun object => !isMarker object

theorem plainObjects_append (first second : List S3Object) :
    plainObjects (first ++ second) = plainObjects first ++ plainObjects second :=
  List.filter_append _ _

theorem collectFiles_eq {maxKeys : Nat} (page : List S3Object) {files : List KeyEntry}
    (room : files.length < maxKeys) :
    collectFiles maxKeys files page =
      (files ++ (plainObjects page).map S3Object.entry).take maxKeys := by
  induction page generalizing files with
  | nil =>
      rw [collectFiles, plainObjects, List.filter_nil, List.map_nil, List.append_nil,
        List.take_of_length_le room.le]
  | cons object rest ih =>
      rw [collectFiles]
      cases marker : isMarker object with
      | true =>
          have skipped : plainObjects (object :: rest) = plainObjects rest := by
            simp [plainObjects, marker]
          rw [if_pos rfl, skipped, ih room]
      | false =>
          have taken : plainObjects (object :: rest) = object :: plainObjects rest := by
            simp [plainObjects, marker]
          have moved : files ++ (object :: plainObjects rest).map S3Object.entry =
              (files ++ [object.entry]) ++ (plainObjects rest).map S3Object.entry := by simp
          rw [if_neg Bool.false_ne_true, taken, moved]
          dsimp only
          split
          · next full =>
              have count : (files ++ [object.entry]).length = maxKeys := by
                simp only [List.length_append, List.length_singleton] at full ⊢
                omega
              rw [List.take_append_of_le_length count.ge, List.take_of_length_le count.le]
          · next more => exact ih (not_le.mp more)

section Call

variable {conventions : Conventions} {store : Store}

/-- The answer of a call for `maxKeys` files over the remaining objects, when it
reads pages of `size` objects. -/
inductive CallAnswer (conventions : Conventions) (store : Store) (params : ListParams)
    (maxKeys size : Nat) (objects : List S3Object) : RecursiveListing → Prop where
  | short : (plainObjects objects).length < maxKeys →
      CallAnswer conventions store params maxKeys size objects
        (recursiveListing ((plainObjects objects).map S3Object.entry) false none)
  | cut (count : Nat) (token : Option Str) :
      (∀ fewer < count, (plainObjects (objects.take (fewer * size))).length < maxKeys) →
      maxKeys ≤ (plainObjects (objects.take (count * size))).length →
      (token = none ↔ objects.length ≤ count * size) →
      (∀ next ∈ token, next ≠ [] ∧ store.remaining conventions (params.continueWith next) =
        .ok ((objects.drop (count * size)).map .object)) →
      CallAnswer conventions store params maxKeys size objects
        (recursiveListing (((plainObjects (objects.take (count * size))).map S3Object.entry).take
          maxKeys) (decide (count * size ≤ objects.length)) token)

theorem contents_page (size : Nat) (objects : List S3Object) :
    (listPage conventions size (objects.map .object)).contents = objects.take size := by
  simp only [listPage, ← List.map_take, object?_map]

theorem truncated_page (size : Nat) (objects : List S3Object) :
    (listPage conventions size (objects.map .object)).isTruncated =
      decide (size < objects.length) := by
  simp [listPage]

theorem token_page {size : Nat} (live : 0 < size) (objects : List S3Object) :
    (listPage conventions size (objects.map .object)).nextContinuationToken = none ↔
      objects.length ≤ size := by
  have marked := @Paging.nextMark_isSome _ _ Listed.name size (objects.map .object) live
  rw [List.length_map] at marked
  cases next : Paging.nextMark Listed.name size (objects.map Listed.object) with
  | none =>
      rw [next] at marked
      have last : ¬ size < objects.length := by simpa using marked.symm
      simp [listPage, next, not_lt.mp last]
  | some mark =>
      rw [next] at marked
      have more : size < objects.length := by simpa using marked.symm
      simp [listPage, next, more]

/-- What the loop knows after `read` pages that did not give it all its files. -/
structure Reading (conventions : Conventions) (store : Store) (origin params : ListParams)
    (maxKeys size : Nat) (objects : List S3Object) (read : Nat) : Prop where
  live : 0 < size
  asked : params.maxKeys = some size
  paged : pageSize params = size
  plain : params.delimiter = none
  inside : read * size < objects.length ∨ read = 0
  same : ∀ token, params.continueWith token = origin.continueWith token
  remaining : store.remaining conventions params =
    .ok ((objects.drop (read * size)).map .object)
  room : ∀ fewer ≤ read, (plainObjects (objects.take (fewer * size))).length < maxKeys

variable {origin params : ListParams} {maxKeys size : Nat} {objects : List S3Object} {read : Nat}

/-- The files of the pages read so far. -/
def filesRead (size : Nat) (objects : List S3Object) (read : Nat) : List KeyEntry :=
  (plainObjects (objects.take (read * size))).map S3Object.entry

theorem take_succ_page (size : Nat) (objects : List S3Object) (read : Nat) :
    objects.take ((read + 1) * size) =
      objects.take (read * size) ++ (objects.drop (read * size)).take size := by
  rw [Nat.succ_mul, List.take_add]

theorem Reading.collected
    (reading : Reading conventions store origin params maxKeys size objects read) :
    collectFiles maxKeys (filesRead size objects read) ((objects.drop (read * size)).take size) =
      (filesRead size objects (read + 1)).take maxKeys := by
  have room : (filesRead size objects read).length < maxKeys := by
    simpa [filesRead] using reading.room read le_rfl
  rw [collectFiles_eq _ room, filesRead, filesRead, take_succ_page, plainObjects_append,
    List.map_append]

theorem Reading.remaining_next
    (reading : Reading conventions store origin params maxKeys size objects read) {token : Str}
    (goesOn : (listPage conventions size
      ((objects.drop (read * size)).map .object)).nextContinuationToken = some token) :
    store.remaining conventions (params.continueWith token) =
      .ok ((objects.drop ((read + 1) * size)).map .object) := by
  have moved := Storage.remaining_next (listing_ascending reading.plain) reading.remaining
    (by rw [reading.paged]; exact goesOn)
  rw [moved, reading.paged, Nat.succ_mul, ← List.drop_drop]
  simp only [List.map_drop]

/-- The next state of the loop, when a page has neither ended it nor been the last. -/
theorem Reading.next (reading : Reading conventions store origin params maxKeys size objects read)
    (wanting : (plainObjects (objects.take ((read + 1) * size))).length < maxKeys)
    (more : (read + 1) * size < objects.length) {token : Str}
    (goesOn : (listPage conventions size
      ((objects.drop (read * size)).map .object)).nextContinuationToken = some token) :
    Reading conventions store origin (params.continueWith token) maxKeys size objects
      (read + 1) where
  live := reading.live
  asked := reading.asked
  paged := reading.paged
  plain := reading.plain
  inside := .inl more
  same _ := reading.same _
  remaining := reading.remaining_next goesOn
  room fewer small := by
    rcases Nat.lt_or_eq_of_le small with earlier | rfl
    · exact reading.room fewer (Nat.le_of_lt_succ earlier)
    · exact wanting

theorem Reading.cut (reading : Reading conventions store origin params maxKeys size objects read)
    (full : maxKeys ≤ (plainObjects (objects.take ((read + 1) * size))).length)
    {page : ListPage}
    (shape : page = listPage conventions size ((objects.drop (read * size)).map .object)) :
    CallAnswer conventions store origin maxKeys size objects
      (recursiveListing ((filesRead size objects (read + 1)).take maxKeys)
        (page.isTruncated || decide (size ≤ page.contents.length))
        (if page.isTruncated || decide (size ≤ page.contents.length) then
          page.nextContinuationToken else none)) := by
  subst shape
  have border : (objects.drop (read * size)).length = objects.length - read * size :=
    List.length_drop
  have truncated : ((listPage conventions size
      ((objects.drop (read * size)).map .object)).isTruncated ||
        decide (size ≤ (listPage conventions size
          ((objects.drop (read * size)).map .object)).contents.length)) =
      decide ((read + 1) * size ≤ objects.length) := by
    rw [truncated_page, contents_page, List.length_take, border, Nat.succ_mul, ← Bool.decide_or]
    refine decide_eq_decide.mpr ?_
    have live := reading.live
    rcases reading.inside with inside | rfl <;> omega
  rw [truncated]
  refine .cut (read + 1) _ (fun fewer small => reading.room fewer (Nat.le_of_lt_succ small)) full
    ?_ ?_
  · have stops := @token_page conventions _ reading.live (objects.drop (read * size))
    rw [border] at stops
    rw [Nat.succ_mul]
    split
    · rw [stops]
      omega
    · next beyond =>
        rw [decide_eq_true_eq] at beyond
        simp only [true_iff]
        omega
  · intro token found
    split at found
    · rw [← reading.same]
      obtain ⟨mark, -, rfl⟩ := Option.map_eq_some_iff.mp found
      exact ⟨conventions.token_nonempty mark, reading.remaining_next found⟩
    · cases found

/-- Every page ends the call, or leads to the next one with files still wanting. -/
theorem Reading.step (reading : Reading conventions store origin params maxKeys size objects read)
    {page : ListPage} {files : List KeyEntry}
    (shape : page = listPage conventions size ((objects.drop (read * size)).map .object))
    (collected : files = (filesRead size objects (read + 1)).take maxKeys) :
    (∃ answer, CallAnswer conventions store origin maxKeys size objects answer ∧
        afterRecursivePage maxKeys params files page = .inl answer) ∨
      ∃ token, (read + 1) * size < objects.length ∧
        files = filesRead size objects (read + 1) ∧
        Reading conventions store origin (params.continueWith token) maxKeys size objects
          (read + 1) ∧
        afterRecursivePage maxKeys params files page = .inr (.ok (params.continueWith token)) := by
  have whole : (filesRead size objects (read + 1)).length =
      (plainObjects (objects.take ((read + 1) * size))).length := by simp [filesRead]
  have border : (objects.drop (read * size)).length = objects.length - read * size :=
    List.length_drop
  unfold afterRecursivePage
  by_cases full : maxKeys ≤ (plainObjects (objects.take ((read + 1) * size))).length
  · refine .inl ⟨_, reading.cut full shape, ?_⟩
    have enough : maxKeys ≤ files.length := by
      rw [collected, List.length_take, whole]
      omega
    rw [if_pos enough, reading.asked, collected]
    rfl
  · have wanting := not_le.mp full
    have kept : files = filesRead size objects (read + 1) := by
      rw [collected, List.take_of_length_le (by omega)]
    have few : ¬ maxKeys ≤ files.length := by
      rw [kept, whole]
      omega
    rw [if_neg few]
    cases more : page.nextContinuationToken with
    | none =>
        rw [shape, token_page reading.live, border] at more
        have beyond : objects.length ≤ (read + 1) * size := by
          rw [Nat.succ_mul]
          omega
        have all : objects.take ((read + 1) * size) = objects := List.take_of_length_le beyond
        have last : page.isTruncated = false := by
          rw [shape, truncated_page, border]
          simpa using more
        refine .inl ⟨_, ?_, by rw [last]; rfl⟩
        rw [kept, filesRead, all]
        rw [all] at wanting
        exact .short wanting
    | some token =>
        have goesOn := shape ▸ more
        have beyond : ¬ objects.length - read * size ≤ size := by
          rw [← border, ← @token_page conventions _ reading.live, goesOn]
          exact Option.some_ne_none _
        have inner : (read + 1) * size < objects.length := by
          rw [Nat.succ_mul]
          omega
        have truncated : page.isTruncated = true := by
          rw [shape, truncated_page, border]
          exact decide_eq_true (not_le.mp beyond)
        refine .inr ⟨token, inner, kept, reading.next wanting inner goesOn, ?_⟩
        rw [if_pos truncated, ListPage.requireToken, more]
        rfl

theorem recursivePages_returns
    (reading : Reading conventions store origin params maxKeys size objects read) (pages : Nat)
    (enough : objects.length ≤ read * size + pages + 1) :
    ∃ answer, CallAnswer conventions store origin maxKeys size objects answer ∧
      Returns conventions (recursivePages maxKeys pages params (filesRead size objects read))
        store answer store := by
  have live := reading.live
  induction pages generalizing params read with
  | zero =>
      have answered := answer_page reading.remaining
      rw [reading.paged] at answered
      have collected := reading.collected
      rw [← @contents_page conventions] at collected
      rcases reading.step rfl collected with ⟨answer, right, ended⟩ | ⟨token, inner, -⟩
      · refine ⟨answer, right, returns_bind (returns_call answered) ?_⟩
        rw [ended]
        exact returns_pure answer
      · rw [Nat.succ_mul] at inner
        omega
  | succ pages ih =>
      have answered := answer_page reading.remaining
      rw [reading.paged] at answered
      have collected := reading.collected
      rw [← @contents_page conventions] at collected
      rcases reading.step rfl collected with ⟨answer, right, ended⟩ | ⟨token, inner, kept, next, goes⟩
      · refine ⟨answer, right, returns_bind (returns_call answered) ?_⟩
        dsimp only
        rw [ended]
        exact returns_pure answer
      · obtain ⟨answer, right, ran⟩ := ih next (by rw [Nat.succ_mul]; omega)
        refine ⟨answer, right, returns_bind (returns_call answered) ?_⟩
        dsimp only
        rw [goes, kept]
        exact ran

end Call

end S3Manager.Storage
