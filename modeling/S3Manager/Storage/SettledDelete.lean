import S3Manager.Storage.ChangingPages
import S3Manager.Storage.DeleteTarget

/-! A delete while other clients use the store. Once it has returned normally, no object of
its target is left, unless another client has put it there meanwhile. -/

set_option autoImplicit false

namespace S3Manager.Storage

open Python Access Library

section Delete

variable {conventions : Conventions} {bucket path key : Str} {pages : Nat}

/-- The object is not there. -/
def Gone (bucket key : Str) (store : Store) : Prop :=
  store.get? bucket key = none

theorem makes_deleteEach {permitted : S3Request → Prop}
    (erases : ∀ batch, permitted (.deleteObjects bucket batch)) (batches : List (List Str))
    (deleted : Nat) : Makes permitted (deleteEach bucket batches deleted) := by
  induction batches generalizing deleted with
  | nil => exact makes_pure _
  | cons batch rest ih => exact makes_bind (makes_call (erases batch)) fun _ => ih _

/-- Batches that are deleted one after the other leave gone what is gone. -/
theorem triple_deleteEach_gone (batches : List (List Str)) (deleted : Nat) :
    Triple conventions (Gone bucket key) (Gone bucket key) (deleteEach bucket batches deleted)
      (fun _ => Gone bucket key) fun _ => True := by
  refine triple_failed (triple_of_makes stable_kept ?_
    (@makes_deleteEach bucket (fun request => ∃ batch, request = .deleteObjects bucket batch)
      (fun batch => ⟨batch, rfl⟩) batches deleted)) fun _ _ => trivial
  rintro _ store ⟨batch, rfl⟩ gone
  show (store.eraseAll bucket batch).get? bucket key = none
  rw [get?_eraseAll]
  split
  · rfl
  · exact gone

/-- A key of one of the batches is gone when all are deleted. -/
theorem triple_deleteEach (batches : List (List Str)) (deleted : Nat)
    (member : key ∈ batches.flatten) :
    Triple conventions (Gone bucket key) (fun _ => True) (deleteEach bucket batches deleted)
      (fun _ => Gone bucket key) fun _ => True := by
  induction batches generalizing deleted with
  | nil => cases member
  | cons batch rest ih =>
      rw [List.flatten_cons] at member
      obtain here | later := List.mem_append.mp member
      · have first : Triple conventions (Gone bucket key) (fun _ => True)
            (S3Program.call (.deleteObjects bucket batch)) (fun _ => Gone bucket key)
            fun _ => True :=
          triple_call stable_true (fun _ => stable_kept) fun store _ => gone_eraseAll here
        exact triple_bind stable_true first fun _ => triple_deleteEach_gone rest _
      · exact triple_bind stable_true (triple_true _) fun _ => ih _ later

theorem shown_key {replies : List ListPage} {taken : List Listed} {line : Listed} {store : Store}
    (shows : Shows replies taken) (shown : line ∈ taken)
    (offered : line ∈ store.listing (folderParams bucket path)) : line.name ∈ pageKeys replies := by
  rw [listing_plain rfl] at offered
  obtain ⟨object, -, rfl⟩ := List.mem_map.mp offered
  rw [pageKeys_eq, shows.contents]
  exact List.mem_map_of_mem (List.mem_filterMap.mpr ⟨_, shown, rfl⟩)

/-- The pages of a directory, taken while others change the store, show every key below it
that is not gone by then. -/
theorem triple_deleteDirectory (under : folderOf path <+: key) :
    Triple conventions (Gone bucket key) (fun _ => True) (deleteDirectory pages bucket path)
      (fun _ => Gone bucket key) fun _ => True := by
  have live : 0 < pageSize (folderParams bucket path) :=
    pageSize_pos (by simp [folderParams, firstPage])
  have paged : Triple conventions (Gone bucket key) (fun _ => True)
      (paginate pages (folderParams bucket path))
      (fun replies store => Gone bucket key store ∨ True ∧ ∃ taken, Paging.Drain Listed.name
        (Offered (fun store => ¬ Gone bucket key store) (folderParams bucket path)) none taken none ∧
          Shows replies taken) fun _ => True :=
    triple_paginate pages stable_true stable_kept (fun store _ => em _) (fun _ _ => trivial) live rfl
  refine triple_bind stable_true paged fun replies => triple_or ?_ (triple_fact ?_)
  · split
    · exact triple_failed (triple_raise stable_kept) fun _ _ => trivial
    · exact triple_deleteEach_gone _ _
  · rintro ⟨taken, drain, shows⟩
    have listed : key ∈ pageKeys replies := by
      have there (lines : List Listed) (offered : Offered (fun store => ¬ Gone bucket key store)
          (folderParams bucket path) lines) : ∃ line ∈ lines, line.name = key := by
        obtain ⟨store, present, rfl⟩ := offered
        obtain ⟨stored, found⟩ := Option.ne_none_iff_exists'.mp present
        obtain ⟨object, member, rfl⟩ :=
          List.mem_map.mp (mem_objectsUnder.mpr ⟨under, stored, found⟩)
        refine ⟨.object object, ?_, rfl⟩
        rw [listing_plain rfl]
        exact List.mem_map_of_mem member
      obtain ⟨line, shown, rfl⟩ | ⟨_, further, -⟩ :=
        Paging.drain_complete (offered_ascending (.inl rfl)) drain there (by simp)
      · obtain ⟨_, ⟨store, -, rfl⟩, offered⟩ := Paging.drain_offered drain shown
        exact shown_key shows shown offered
      · cases further
    have some : (pageKeys replies).isEmpty = false := by
      cases keys : pageKeys replies with
      | nil =>
          rw [keys] at listed
          cases listed
      | cons => rfl
    simp only [some, Bool.false_eq_true, if_false]
    exact triple_deleteEach _ _ (by rwa [deleteBatches_flatten])

theorem triple_deleteSingle :
    Triple conventions (Gone bucket (rstripSlash path)) (fun _ => True) (deleteSingle bucket path)
      (fun _ => Gone bucket (rstripSlash path)) fun _ => True := by
  have erased : Triple conventions (Gone bucket (rstripSlash path)) (fun _ => True)
      (S3Program.call (.deleteObject bucket (rstripSlash path)))
      (fun _ => Gone bucket (rstripSlash path)) fun _ => True :=
    triple_call stable_true (fun _ => stable_kept) fun store _ =>
      gone_eraseAll List.mem_cons_self
  refine triple_bind stable_true (triple_true _) fun page => ?_
  split
  · exact triple_raise stable_true
  · split
    · exact triple_bind stable_true erased fun _ =>
        triple_failed (triple_pure stable_kept fun _ gone => gone) fun _ _ => trivial
    · exact triple_raise stable_true

/-- A delete that returns has left nothing of its target, unless others have put it there. -/
theorem triple_deletePathKeys (targeted : Targeted path key) :
    Triple conventions (Gone bucket key) (fun _ => True) (deletePathKeys pages bucket path)
      (fun _ => Gone bucket key) fun _ => True := by
  unfold deletePathKeys
  unfold Targeted at targeted
  split
  · next slash =>
      rw [if_pos slash] at targeted
      exact triple_deleteDirectory targeted
  · next plain =>
      rw [if_neg plain] at targeted
      have whole : rstripSlash path = key :=
        (rstripSlash_eq_self (Bool.not_eq_true _ ▸ plain)).trans targeted.symm
      exact whole ▸ triple_deleteSingle

variable {unicode : Unicode} {config : Dict} {role : Option Str} {user : UserDict}

theorem triple_deleteObjectForRole (targeted : Targeted path key) :
    Triple conventions (Gone bucket key) (fun _ => True)
      (deleteObjectForRole unicode config pages role bucket path user)
      (fun _ => Gone bucket key) fun _ => True := by
  refine triple_check stable_true fun _ _ => triple_retry stable_true (fun _ => stable_kept) ?_
  exact triple_bind stable_true (triple_deletePathKeys targeted) fun _ =>
    triple_failed (triple_pure stable_kept fun _ gone => gone) fun _ _ => trivial

end Delete

end S3Manager.Storage
