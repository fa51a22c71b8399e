import S3Manager.Storage.Objects
import S3Manager.Storage.StoreRuns

/-! What a delete does to a store: a path without a trailing slash is one key, and
a path with one is everything below it. -/

set_option autoImplicit false

namespace S3Manager.Storage

open Python Library

section Erased

variable {store : Store} {bucket : Str}

@[simp] theorem get?_setBucket (objects : OrderedMap Str Stored) (name key : Str) :
    (store.setBucket bucket objects).get? name key =
      if name = bucket then objects.get? key else store.get? name key := by
  unfold Store.get? Store.setBucket
  dsimp only
  split <;> rfl

theorem get?_eraseAll (keys : List Str) (name key : Str) :
    (store.eraseAll bucket keys).get? name key =
      if name = bucket ∧ key ∈ keys then none else store.get? name key := by
  simp only [Store.eraseAll, get?_setBucket, OrderedMap.get?_eraseAll]
  by_cases here : name = bucket
  · subst here
    by_cases member : key ∈ keys <;> simp [member, Store.get?]
  · simp [here]

theorem get?_put (key : Str) (body : Bytes) (contentType : Option Str) (name other : Str) :
    (store.put bucket key body contentType).get? name other =
      if name = bucket ∧ other = key then some ⟨body, contentType, store.now⟩
      else store.get? name other := by
  simp only [Store.put, get?_setBucket, OrderedMap.get?_insert]
  by_cases here : name = bucket
  · subst here
    by_cases same : key = other
    · simp [same]
    · simp [same, Ne.symm same, Store.get?]
  · simp [here]

end Erased

section Batches

theorem flatten_chunks {α : Type} (size : Nat) (items : List α) (count : Nat) :
    ((List.range count).map fun i => (items.drop (i * size)).take size).flatten =
      items.take (count * size) := by
  induction count with
  | zero => simp
  | succ count ih =>
      rw [List.range_succ, List.map_append, List.flatten_append, ih]
      simp only [List.map_cons, List.map_nil, List.flatten_cons, List.flatten_nil,
        List.append_nil]
      rw [Nat.succ_mul, List.take_add]

theorem deleteBatches_flatten (keys : List Str) : (deleteBatches keys).flatten = keys := by
  unfold deleteBatches
  rw [flatten_chunks]
  exact List.take_of_length_le (by omega)

theorem deleteBatches_one (key : Str) : deleteBatches [key] = [[key]] := by
  simp [deleteBatches]

variable {conventions : Conventions} {bucket : Str}

theorem deleteEach_returns (batches : List (List Str)) (deleted : Nat) (store : Store) :
    ∃ after, Returns conventions (deleteEach bucket batches deleted) store
        (deleted + batches.flatten.length) after ∧
      ∀ name key, after.get? name key =
        if name = bucket ∧ key ∈ batches.flatten then none else store.get? name key := by
  induction batches generalizing deleted store with
  | nil => exact ⟨store, returns_pure _, by simp⟩
  | cons batch rest ih =>
      obtain ⟨after, ran, erased⟩ := ih (deleted + batch.length) (store.eraseAll bucket batch)
      refine ⟨after, ?_, fun name key => ?_⟩
      · have total : deleted + (batch :: rest).flatten.length =
            deleted + batch.length + rest.flatten.length := by
          rw [List.flatten_cons, List.length_append, Nat.add_assoc]
        rw [total]
        exact returns_bind (returns_call rfl) ran
      · rw [erased, get?_eraseAll, List.flatten_cons]
        by_cases here : name = bucket
        · by_cases first : key ∈ batch <;> simp [here, first]
        · simp [here]

end Batches

section Directory

variable {conventions : Conventions} {store : Store} {bucket path : Str} {pages : Nat}

/-- The prefix that a directory delete lists. -/
def folderOf (path : Str) : Str :=
  rstripSlash path ++ ['/']

theorem pageKeys_eq (replies : List ListPage) :
    pageKeys replies = (replies.flatMap ListPage.contents).map S3Object.key := by
  simp only [pageKeys, List.map_flatMap]

def folderParams (bucket path : Str) : ListParams :=
  firstPage bucket (folderOf path) none none

theorem folder_remaining : store.remaining conventions (folderParams bucket path) =
    .ok ((store.objectsUnder bucket (folderOf path)).map .object) := by
  have listed : store.listing (folderParams bucket path) =
      (store.objectsUnder bucket (folderOf path)).map .object := listing_plain rfl
  simp only [Store.remaining, folderParams, firstPage] at listed ⊢
  rw [listed]

theorem deleteDirectory_returns
    (enough : (store.objectsUnder bucket (folderOf path)).length ≤ pages + 1)
    (occupied : store.objectsUnder bucket (folderOf path) ≠ []) :
    ∃ count after, Returns conventions (deleteDirectory pages bucket path) store count after ∧
      ∀ name key, after.get? name key =
        if name = bucket ∧ folderOf path <+: key then none else store.get? name key := by
  obtain ⟨replies, ran, seen⟩ := @paginate_returns conventions store (folderParams bucket path) _
    pages (listing_ascending rfl) (pageSize_pos (by simp [folderParams, firstPage]))
    folder_remaining (by simpa using enough)
  have contents := seen.contents
  rw [object?_map] at contents
  have keys : pageKeys replies = (store.objectsUnder bucket (folderOf path)).map S3Object.key := by
    rw [pageKeys_eq, contents]
  obtain ⟨after, deleted, erased⟩ := @deleteEach_returns conventions bucket
    (deleteBatches (pageKeys replies)) 0 store
  refine ⟨0 + (deleteBatches (pageKeys replies)).flatten.length, after, returns_bind ran ?_,
    fun name key => ?_⟩
  · have live : (pageKeys replies).isEmpty = false := by
      rw [keys]
      simpa using occupied
    rw [live]
    exact deleted
  · rw [erased, deleteBatches_flatten, keys]
    by_cases here : name = bucket
    · subst here
      by_cases under : folderOf path <+: key
      · cases found : store.get? name key with
        | none => simp
        | some stored =>
            have member := mem_objectsUnder.mpr ⟨under, stored, found⟩
            simp [member, under]
      · have absent : key ∉ (store.objectsUnder name (folderOf path)).map S3Object.key :=
          fun member => under (mem_objectsUnder.mp member).1
        simp only [absent, under]
    · simp [here]

end Directory

section Single

variable {conventions : Conventions} {store : Store} {bucket path : Str} {pages : Nat}

theorem objectsUnder_present {key : Str} {stored : Stored}
    (present : store.get? bucket key = some stored) :
    ∃ first rest, store.objectsUnder bucket key = first :: rest ∧ first.key = key := by
  have member : key ∈ (store.objectsUnder bucket key).map S3Object.key :=
    mem_objectsUnder.mpr ⟨List.prefix_rfl, stored, present⟩
  have ascending := objectsUnder_ascending store bucket key
  cases lines : store.objectsUnder bucket key with
  | nil =>
      rw [lines] at member
      cases member
  | cons first rest =>
      refine ⟨first, rest, rfl, ?_⟩
      rw [lines] at member ascending
      rcases List.mem_cons.mp member with same | later
      · exact same.symm
      · obtain ⟨object, inRest, same⟩ := List.mem_map.mp later
        have under : key <+: first.key :=
          (mem_objectsUnder.mp (lines ▸ List.mem_map_of_mem List.mem_cons_self)).1
        have below : first.key < object.key := (List.pairwise_cons.mp ascending).1 object inRest
        rw [same] at below
        exact absurd below under.le

def singleParams (bucket path : Str) : ListParams :=
  firstPage bucket (rstripSlash path) none (some 1)

theorem single_remaining : store.remaining conventions (singleParams bucket path) =
    .ok ((store.objectsUnder bucket (rstripSlash path)).map .object) := by
  have listed : store.listing (singleParams bucket path) =
      (store.objectsUnder bucket (rstripSlash path)).map .object := listing_plain rfl
  simp only [Store.remaining, singleParams, firstPage] at listed ⊢
  rw [listed]

theorem listed_present {page : ListPage} {object : S3Object} {rest : List S3Object} {size : Nat}
    {searchPrefix : Str} (same : page = listPage conventions size
      ((store.objectsUnder bucket searchPrefix).map .object))
    (shown : page.contents = object :: rest) : store.get? bucket object.key ≠ none := by
  subst same
  have member : object ∈ (store.objectsUnder bucket searchPrefix) := by
    have first : object ∈ (((store.objectsUnder bucket searchPrefix).map
        Listed.object).take size).filterMap Listed.object? := by
      change object ∈ (listPage conventions size _).contents
      rw [shown]
      exact List.mem_cons_self
    rw [← List.map_take, object?_map] at first
    exact List.mem_of_mem_take first
  obtain ⟨_, stored, found⟩ := mem_objectsUnder.mp (List.mem_map_of_mem member)
  rw [found]
  exact Option.some_ne_none stored

theorem atomic_deleteSingle :
    Atomic conventions (deleteSingle bucket path) store fun _ after =>
      store.get? bucket (rstripSlash path) ≠ none ∧
        after = store.eraseAll bucket [rstripSlash path] := by
  refine atomic_bind (@atomic_list conventions store (singleParams bucket path) _
    single_remaining) fun page same => ?_
  split
  · exact atomic_error _
  · next object rest shown =>
      split
      · next whole =>
          have erased : store.answer conventions (.deleteObject bucket (rstripSlash path)) =
              (.ok (), store.eraseAll bucket [rstripSlash path]) := rfl
          have present := listed_present same shown
          rw [whole] at present
          exact atomic_then_pure (atomic_mono (atomic_answered erased)
            fun _ _ left => ⟨present, left⟩)
      · exact atomic_error _

theorem deleteSingle_returns {stored : Stored}
    (present : store.get? bucket (rstripSlash path) = some stored) :
    Returns conventions (deleteSingle bucket path) store 1
      (store.eraseAll bucket [rstripSlash path]) := by
  obtain ⟨first, rest, lines, same⟩ := objectsUnder_present present
  refine returns_bind (returns_call (@answer_page conventions store (singleParams bucket path) _
    single_remaining)) ?_
  rw [lines]
  have shown : (listPage conventions (pageSize (singleParams bucket path))
      ((first :: rest).map .object)).contents = [first] := rfl
  rw [shown]
  dsimp only
  rw [if_pos same]
  exact returns_bind (returns_call rfl) (returns_pure 1)

theorem atomic_deleteDirectory_alone {object : S3Object}
    (alone : store.objectsUnder bucket (folderOf path) = [object]) :
    Atomic conventions (deleteDirectory pages bucket path) store fun _ after =>
      after = store.eraseAll bucket [object.key] := by
  refine atomic_bind (@atomic_paginate conventions store (folderParams bucket path) _ pages
    (listing_ascending rfl) (pageSize_pos (by simp [folderParams, firstPage])) folder_remaining)
    fun replies seen => ?_
  have contents := seen.contents
  rw [object?_map, alone] at contents
  have keys : pageKeys replies = [object.key] := by
    rw [pageKeys_eq, contents]
    rfl
  rw [keys]
  have erased : store.answer conventions (.deleteObjects bucket [object.key]) =
      (.ok [], store.eraseAll bucket [object.key]) := rfl
  rw [deleteBatches_one]
  change Atomic conventions (S3Program.call (.deleteObjects bucket [object.key]) >>= fun _ =>
    pure (0 + [object.key].length)) store _
  exact atomic_then_pure (atomic_answered erased)

end Single

section Target

variable {conventions : Conventions} {store : Store} {bucket path : Str} {pages : Nat}

/-- The keys that a delete of `path` is for. -/
def Targeted (path key : Str) : Prop :=
  if endsWith path ['/'] then folderOf path <+: key else key = path

theorem under_folderOf (slash : endsWith path ['/'] = true) : folderOf path <+: path := by
  obtain ⟨init, ends⟩ := endsWith_slash_iff.mp slash
  obtain ⟨count, split⟩ := rstripSlash_split path
  cases count with
  | zero =>
      have whole : rstripSlash path = init ++ ['/'] := by
        rw [List.replicate_zero, List.append_nil] at split
        exact split.symm.trans ends
      exact absurd whole rstripSlash_last
  | succ more =>
      refine ⟨List.replicate more '/', ?_⟩
      conv_rhs => rw [split]
      simp [folderOf, List.replicate_succ]

theorem targeted_self (path : Str) : Targeted path path := by
  unfold Targeted
  split
  · next slash => exact under_folderOf slash
  · rfl

theorem deletePathKeys_returns {stored : Stored} (present : store.get? bucket path = some stored)
    (enough : (store.objects bucket).entries.length ≤ pages + 1) :
    ∃ count after, Returns conventions (deletePathKeys pages bucket path) store count after ∧
      ∀ name key, (name = bucket ∧ Targeted path key → after.get? name key = none) ∧
        (¬ (name = bucket ∧ Targeted path key) → after.get? name key = store.get? name key) := by
  cases slash : endsWith path ['/'] with
  | true =>
      have member : path ∈ (store.objectsUnder bucket (folderOf path)).map S3Object.key :=
        mem_objectsUnder.mpr ⟨under_folderOf slash, stored, present⟩
      have occupied : store.objectsUnder bucket (folderOf path) ≠ [] := by
        intro empty
        rw [empty] at member
        cases member
      have short : (store.objectsUnder bucket (folderOf path)).length ≤ pages + 1 := by
        rw [Store.objectsUnder, List.length_map]
        exact (List.length_filter_le _ _).trans enough
      obtain ⟨count, after, ran, erased⟩ := deleteDirectory_returns short occupied
      refine ⟨count, after, ?_, fun name key => ?_⟩
      · rw [deletePathKeys, if_pos slash]
        exact ran
      · rw [erased, Targeted, if_pos slash]
        exact ⟨fun target => if_pos target, fun other => if_neg other⟩
  | false =>
      have plain := rstripSlash_eq_self slash
      have live : ¬ endsWith path ['/'] = true := by simp [slash]
      refine ⟨1, store.eraseAll bucket [path], ?_, fun name key => ?_⟩
      · rw [deletePathKeys, if_neg live]
        have ran := @deleteSingle_returns conventions store bucket path stored (by rwa [plain])
        rwa [plain] at ran
      · rw [get?_eraseAll, Targeted, if_neg live]
        refine ⟨fun target => if_pos ?_, fun other => if_neg ?_⟩
        · exact ⟨target.1, List.mem_singleton.mpr target.2⟩
        · exact fun erased => other ⟨erased.1, List.mem_singleton.mp erased.2⟩

theorem eq_singleton_of_keys {objects : List S3Object} {key : Str}
    (ascending : Paging.Ascending S3Object.key objects)
    (member : key ∈ objects.map S3Object.key)
    (same : ∀ other ∈ objects.map S3Object.key, other = key) :
    ∃ object, objects = [object] ∧ object.key = key := by
  cases objects with
  | nil => cases member
  | cons first rest =>
      have here : first.key = key := same _ List.mem_cons_self
      cases rest with
      | nil => exact ⟨first, rfl, here⟩
      | cons second more =>
          have there : second.key = key := same _ (by simp)
          have below := (List.pairwise_cons.mp ascending).1 second List.mem_cons_self
          rw [here, there] at below
          exact absurd below (lt_irrefl key)

theorem atomic_deletePathKeys {stored : Stored} (present : store.get? bucket path = some stored)
    (alone : endsWith path ['/'] = true → ∀ key, folderOf path <+: key →
      store.get? bucket key ≠ none → key = path) :
    Atomic conventions (deletePathKeys pages bucket path) store fun _ after =>
      after = store.eraseAll bucket [path] := by
  cases slash : endsWith path ['/'] with
  | true =>
      have member : path ∈ (store.objectsUnder bucket (folderOf path)).map S3Object.key :=
        mem_objectsUnder.mpr ⟨under_folderOf slash, stored, present⟩
      obtain ⟨object, single, same⟩ :=
        eq_singleton_of_keys (objectsUnder_ascending store bucket (folderOf path)) member
          fun key listed => by
            obtain ⟨under, other, found⟩ := mem_objectsUnder.mp listed
            exact alone slash key under (by rw [found]; exact Option.some_ne_none _)
      rw [deletePathKeys, if_pos slash]
      have deleted := @atomic_deleteDirectory_alone conventions store bucket path pages object single
      rwa [same] at deleted
  | false =>
      have plain := rstripSlash_eq_self slash
      have live : ¬ endsWith path ['/'] = true := by simp [slash]
      rw [deletePathKeys, if_neg live]
      have single := @atomic_deleteSingle conventions store bucket path
      rw [plain] at single
      exact atomic_mono single fun _ _ erased => erased.2

end Target

end S3Manager.Storage
