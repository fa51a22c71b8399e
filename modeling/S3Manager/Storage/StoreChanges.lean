import S3Manager.Storage.Confinement

/-! What a request can do to one object: lose it, if it erases, and put another one in its
place, if it stores. -/

set_option autoImplicit false

namespace S3Manager.Storage

open Python Library

/-- The request puts this object into the store. -/
def Puts (bucket key : Str) : S3Request → Prop
  | .putObject name other _ _ _ | .uploadFileobj name other _ _ _ | .copyObject name other _ _ =>
      name = bucket ∧ other = key
  | _ => False

/-- The request takes this object out of it. -/
def Takes (bucket key : Str) : S3Request → Prop
  | .deleteObject name other => name = bucket ∧ other = key
  | .deleteObjects name keys => name = bucket ∧ key ∈ keys
  | _ => False

/-- The object is lost only with `erase`, and there is another one only with `store`. -/
structure ChangesOnly (bucket key : Str) (store erase : Prop) (held later : Store) : Prop where
  lost : held.get? bucket key ≠ none → later.get? bucket key = none → erase
  changed : ∀ stored, later.get? bucket key = some stored → held.get? bucket key ≠ some stored →
    store

section Laws

variable {conventions : Conventions} {bucket key : Str} {store erase : Prop}
  {held between later : Store}

theorem changesOnly_of_same (same : later.get? bucket key = held.get? bucket key) :
    ChangesOnly bucket key store erase held later :=
  ⟨fun there gone => absurd (same.symm.trans gone) there,
    fun _ here other => absurd (same.symm.trans here) other⟩

theorem changesOnly_refl (held : Store) : ChangesOnly bucket key store erase held held :=
  changesOnly_of_same rfl

theorem changesOnly_trans (left : ChangesOnly bucket key store erase held between)
    (right : ChangesOnly bucket key store erase between later) :
    ChangesOnly bucket key store erase held later := by
  refine ⟨fun there gone => ?_, fun stored here other => ?_⟩
  · by_cases missing : between.get? bucket key = none
    · exact left.lost there missing
    · exact right.lost missing gone
  · by_cases found : between.get? bucket key = some stored
    · exact left.changed stored found other
    · exact right.changed stored here found

theorem changesOnly_mono {fewer lesser : Prop} (stores : fewer → store) (erases : lesser → erase)
    (changes : ChangesOnly bucket key fewer lesser held later) :
    ChangesOnly bucket key store erase held later :=
  ⟨fun there gone => erases (changes.lost there gone),
    fun stored here other => stores (changes.changed stored here other)⟩

theorem changesOnly_put {name other : Str} (permitted : name = bucket ∧ other = key → store)
    (body : Bytes) (contentType : Option Str) :
    ChangesOnly bucket key store erase held (held.put name other body contentType) := by
  refine ⟨fun there gone => ?_, fun stored here different => permitted ?_⟩
  · rw [get?_put] at gone
    split_ifs at gone
    exact absurd gone there
  · rw [get?_put] at here
    split_ifs at here with same
    · exact ⟨same.1.symm, same.2.symm⟩
    · exact absurd here different

theorem changesOnly_eraseAll {name : Str} {keys : List Str}
    (permitted : name = bucket ∧ key ∈ keys → erase) :
    ChangesOnly bucket key store erase held (held.eraseAll name keys) := by
  refine ⟨fun there gone => permitted ?_, fun stored here other => ?_⟩
  · rw [get?_eraseAll] at gone
    split_ifs at gone with taken
    · exact ⟨taken.1.symm, taken.2⟩
    · exact absurd gone there
  · rw [get?_eraseAll] at here
    split_ifs at here
    exact absurd here other

/-- One request. -/
theorem answer_changesOnly {request : S3Request} (puts : Puts bucket key request → store)
    (takes : Takes bucket key request → erase) :
    ChangesOnly bucket key store erase held (held.answer conventions request).2 := by
  cases request with
  | listObjectsV2 | getObject | generatePresignedUrl | listBuckets => exact changesOnly_refl held
  | headObject name other =>
      simp only [Store.answer]
      cases held.get? name other with
      | none => exact changesOnly_refl held
      | some stored => exact changesOnly_refl held
  | putObject => exact changesOnly_put puts _ _
  | uploadFileobj => exact changesOnly_put puts _ _
  | copyObject name other sourceBucket sourceKey =>
      simp only [Store.answer]
      cases held.get? sourceBucket sourceKey with
      | none => exact changesOnly_refl held
      | some stored => exact changesOnly_put puts _ _
  | deleteObject name other =>
      refine changesOnly_eraseAll fun taken => takes ⟨taken.1, ?_⟩
      exact (List.mem_singleton.mp taken.2).symm
  | deleteObjects => exact changesOnly_eraseAll takes

end Laws

end S3Manager.Storage
