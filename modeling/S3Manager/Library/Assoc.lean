import Mathlib.Data.List.Basic

/-! Finite dictionaries as association lists. The first entry of a key counts,
updates happen in place, and new keys go to the end, as in an ordered
dictionary. -/

set_option autoImplicit false

namespace S3Manager.Library

namespace Assoc

variable {Key Value : Type} [DecidableEq Key]

def get? : List (Key × Value) → Key → Option Value
  | [], _ => none
  | (k, v) :: rest, key => if k = key then some v else get? rest key

def set : List (Key × Value) → Key → Value → List (Key × Value)
  | [], key, value => [(key, value)]
  | (k, v) :: rest, key, value =>
      if k = key then (k, value) :: rest else (k, v) :: set rest key value

def erase : List (Key × Value) → Key → List (Key × Value)
  | [], _ => []
  | (k, v) :: rest, key => if k = key then erase rest key else (k, v) :: erase rest key

def contains (entries : List (Key × Value)) (key : Key) : Bool :=
  (get? entries key).isSome

@[simp] theorem get?_nil (key : Key) : get? ([] : List (Key × Value)) key = none := rfl

@[simp] theorem get?_set_self (entries : List (Key × Value)) (key : Key) (value : Value) :
    get? (set entries key value) key = some value := by
  induction entries with
  | nil => simp [set, get?]
  | cons entry rest ih =>
      obtain ⟨k, v⟩ := entry
      by_cases same : k = key <;> simp [set, get?, same, ih]

theorem get?_set_ne (entries : List (Key × Value)) {key other : Key} (value : Value)
    (different : other ≠ key) : get? (set entries key value) other = get? entries other := by
  induction entries with
  | nil => simp [set, get?, Ne.symm different]
  | cons entry rest ih =>
      obtain ⟨k, v⟩ := entry
      by_cases same : k = key
      · subst same
        simp [set, get?, Ne.symm different]
      · by_cases found : k = other
        · subst found
          simp [set, get?, same]
        · simp [set, get?, same, found, ih]

@[simp] theorem get?_erase_self (entries : List (Key × Value)) (key : Key) :
    get? (erase entries key) key = none := by
  induction entries with
  | nil => rfl
  | cons entry rest ih =>
      obtain ⟨k, v⟩ := entry
      by_cases same : k = key <;> simp [erase, get?, same, ih]

theorem get?_erase_ne (entries : List (Key × Value)) {key other : Key} (different : other ≠ key) :
    get? (erase entries key) other = get? entries other := by
  induction entries with
  | nil => rfl
  | cons entry rest ih =>
      obtain ⟨k, v⟩ := entry
      by_cases same : k = key
      · subst same
        simp [erase, get?, Ne.symm different, ih]
      · by_cases found : k = other
        · subst found
          simp [erase, get?, same]
        · simp [erase, get?, same, found, ih]

theorem mem_keys_set {entries : List (Key × Value)} {key other : Key} {value : Value}
    (member : other ∈ (set entries key value).map Prod.fst) :
    other = key ∨ other ∈ entries.map Prod.fst := by
  induction entries with
  | nil => exact .inl (by simpa [set] using member)
  | cons entry rest ih =>
      obtain ⟨k, v⟩ := entry
      unfold set at member
      split_ifs at member with same
      · exact .inr (same ▸ member)
      · obtain rfl | later := List.mem_cons.mp member
        · exact .inr List.mem_cons_self
        · obtain new | before := ih later
          · exact .inl new
          · exact .inr (List.mem_cons_of_mem _ before)

theorem nodup_keys_set {entries : List (Key × Value)} (key : Key) (value : Value)
    (distinct : (entries.map Prod.fst).Nodup) :
    ((set entries key value).map Prod.fst).Nodup := by
  induction entries with
  | nil => simp [set]
  | cons entry rest ih =>
      obtain ⟨k, v⟩ := entry
      obtain ⟨fresh, restDistinct⟩ := List.nodup_cons.mp distinct
      unfold set
      split_ifs with same
      · exact same ▸ distinct
      · refine List.nodup_cons.mpr ⟨fun member => ?_, ih restDistinct⟩
        obtain again | before := mem_keys_set member
        · exact same again
        · exact fresh before

theorem set_of_fresh {entries : List (Key × Value)} {key : Key} (value : Value)
    (fresh : key ∉ entries.map Prod.fst) : set entries key value = entries ++ [(key, value)] := by
  induction entries with
  | nil => rfl
  | cons entry rest ih =>
      obtain ⟨k, v⟩ := entry
      have different : k ≠ key := fun same => fresh (same ▸ List.mem_cons_self)
      rw [set, if_neg different, ih fun member => fresh (List.mem_cons_of_mem _ member)]
      rfl

theorem mem_of_get? {entries : List (Key × Value)} {key : Key} {value : Value}
    (found : get? entries key = some value) : (key, value) ∈ entries := by
  induction entries with
  | nil => cases found
  | cons entry rest ih =>
      obtain ⟨k, v⟩ := entry
      unfold get? at found
      split_ifs at found with same
      · obtain rfl := Option.some.inj found
        exact same ▸ List.mem_cons_self
      · exact List.mem_cons_of_mem _ (ih found)

theorem get?_of_mem {entries : List (Key × Value)} {key : Key} {value : Value}
    (distinct : (entries.map Prod.fst).Nodup) (member : (key, value) ∈ entries) :
    get? entries key = some value := by
  induction entries with
  | nil => cases member
  | cons entry rest ih =>
      obtain ⟨k, v⟩ := entry
      obtain ⟨fresh, restDistinct⟩ := List.nodup_cons.mp distinct
      obtain only | later := List.mem_cons.mp member
      · obtain ⟨rfl, rfl⟩ := Prod.mk.inj only
        simp [get?]
      · have different : k ≠ key := by
          rintro rfl
          exact fresh (List.mem_map.mpr ⟨_, later, rfl⟩)
        simp [get?, different, ih restDistinct later]

end Assoc

end S3Manager.Library
