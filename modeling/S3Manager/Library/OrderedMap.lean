import Mathlib.Data.List.Sort
import Mathlib.Order.Basic

/-! Finite maps as lists of entries in strictly ascending key order. The entries
are the enumeration of the map, and a page of it is a piece of that list. -/

set_option autoImplicit false

namespace S3Manager.Library

/-- A map with its entries in ascending order, so that no key occurs twice. -/
structure OrderedMap (Key Value : Type) [LinearOrder Key] where
  entries : List (Key × Value)
  ascending : entries.Pairwise fun left right => left.1 < right.1

namespace OrderedMap

variable {Key Value : Type} [LinearOrder Key]

def empty : OrderedMap Key Value where
  entries := []
  ascending := .nil

section Entries

def insertEntry (key : Key) (value : Value) : List (Key × Value) → List (Key × Value)
  | [] => [(key, value)]
  | (other, previous) :: rest =>
      if key < other then (key, value) :: (other, previous) :: rest
      else if key = other then (key, value) :: rest
      else (other, previous) :: insertEntry key value rest

theorem mem_insertEntry {key : Key} {value : Value} {entry : Key × Value}
    {entries : List (Key × Value)} (member : entry ∈ insertEntry key value entries) :
    entry = (key, value) ∨ entry ∈ entries := by
  induction entries with
  | nil => exact .inl (by simpa [insertEntry] using member)
  | cons first rest ih =>
      obtain ⟨other, previous⟩ := first
      simp only [insertEntry] at member
      split at member
      · simpa using member
      · split at member
        · rcases List.mem_cons.mp member with same | later
          · exact .inl same
          · exact .inr (List.mem_cons_of_mem _ later)
        · rcases List.mem_cons.mp member with same | later
          · exact .inr (same ▸ List.mem_cons_self)
          · exact (ih later).imp id (List.mem_cons_of_mem _)

theorem insertEntry_ascending (key : Key) (value : Value) {entries : List (Key × Value)}
    (ascending : entries.Pairwise fun left right => left.1 < right.1) :
    (insertEntry key value entries).Pairwise fun left right => left.1 < right.1 := by
  induction entries with
  | nil => simp [insertEntry]
  | cons first rest ih =>
      obtain ⟨other, previous⟩ := first
      obtain ⟨above, restAscending⟩ := List.pairwise_cons.mp ascending
      simp only [insertEntry]
      split
      · next before =>
          refine List.pairwise_cons.mpr ⟨fun entry member => ?_, ascending⟩
          rcases List.mem_cons.mp member with rfl | later
          · exact before
          · exact lt_trans before (above entry later)
      · next notBefore =>
          split
          · next same =>
              subst same
              exact List.pairwise_cons.mpr ⟨above, restAscending⟩
          · next different =>
              refine List.pairwise_cons.mpr ⟨fun entry member => ?_, ih restAscending⟩
              rcases mem_insertEntry member with rfl | later
              · exact lt_of_le_of_ne (not_lt.mp notBefore) (Ne.symm different)
              · exact above entry later

theorem length_insertEntry_le (key : Key) (value : Value) (entries : List (Key × Value)) :
    (insertEntry key value entries).length ≤ entries.length + 1 := by
  induction entries with
  | nil => rfl
  | cons first rest ih =>
      simp only [insertEntry]
      split
      · rfl
      · split
        · exact Nat.le_succ _
        · exact Nat.succ_le_succ ih

def find? (key : Key) : List (Key × Value) → Option Value
  | [] => none
  | (other, value) :: rest => if other = key then some value else find? key rest

theorem find?_insertEntry (key other : Key) (value : Value) (entries : List (Key × Value)) :
    find? other (insertEntry key value entries) =
      if key = other then some value else find? other entries := by
  induction entries with
  | nil => simp [insertEntry, find?]
  | cons first rest ih =>
      obtain ⟨head, previous⟩ := first
      simp only [insertEntry]
      split
      · simp [find?]
      · split
        · next same =>
            subst same
            by_cases found : key = other <;> simp [find?, found]
        · next different =>
            by_cases here : head = other
            · subst here
              simp [find?, different]
            · simp [find?, here, ih]

theorem find?_eq_some_iff {entries : List (Key × Value)}
    (ascending : entries.Pairwise fun left right => left.1 < right.1) {key : Key}
    {value : Value} : find? key entries = some value ↔ (key, value) ∈ entries := by
  induction entries with
  | nil => simp [find?]
  | cons first rest ih =>
      obtain ⟨other, previous⟩ := first
      obtain ⟨above, restAscending⟩ := List.pairwise_cons.mp ascending
      by_cases here : other = key
      · subst here
        have absent : (other, value) ∉ rest := fun member => lt_irrefl other (above (other, value) member)
        simp [find?, absent, Eq.comm]
      · simp [find?, here, ih restAscending, Ne.symm here]

theorem find?_filter (keep : Key → Bool) (key : Key) (entries : List (Key × Value)) :
    find? key (entries.filter fun entry => keep entry.1) =
      if keep key then find? key entries else none := by
  induction entries with
  | nil => simp [find?]
  | cons first rest ih =>
      obtain ⟨other, previous⟩ := first
      by_cases here : other = key
      · subst here
        cases kept : keep other <;> simp [find?, kept, ih]
      · cases kept : keep other <;> simp [find?, kept, here, ih]

end Entries

def get? (map : OrderedMap Key Value) (key : Key) : Option Value :=
  find? key map.entries

def insert (map : OrderedMap Key Value) (key : Key) (value : Value) : OrderedMap Key Value where
  entries := insertEntry key value map.entries
  ascending := insertEntry_ascending key value map.ascending

/-- The entries whose key satisfies `keep`. -/
def filterKeys (map : OrderedMap Key Value) (keep : Key → Bool) : OrderedMap Key Value where
  entries := map.entries.filter fun entry => keep entry.1
  ascending := map.ascending.filter _

def eraseAll (map : OrderedMap Key Value) (keys : List Key) : OrderedMap Key Value :=
  map.filterKeys fun key => !keys.contains key

variable (map : OrderedMap Key Value)

theorem get?_eq_some_iff {key : Key} {value : Value} :
    map.get? key = some value ↔ (key, value) ∈ map.entries :=
  find?_eq_some_iff map.ascending

@[simp] theorem get?_insert (key other : Key) (value : Value) :
    (map.insert key value).get? other = if key = other then some value else map.get? other :=
  find?_insertEntry key other value map.entries

@[simp] theorem get?_filterKeys (keep : Key → Bool) (key : Key) :
    (map.filterKeys keep).get? key = if keep key then map.get? key else none :=
  find?_filter keep key map.entries

@[simp] theorem get?_eraseAll (keys : List Key) (key : Key) :
    (map.eraseAll keys).get? key = if key ∈ keys then none else map.get? key := by
  by_cases member : key ∈ keys <;> simp [eraseAll, member]

omit map in
/-- Maps with the same values have the same entries. -/
theorem entries_eq_of_get? {first second : OrderedMap Key Value}
    (same : ∀ key, first.get? key = second.get? key) : first.entries = second.entries := by
  have distinct (map : OrderedMap Key Value) : map.entries.Nodup :=
    map.ascending.imp fun below => fun equal => (equal ▸ below).false
  have perm : first.entries.Perm second.entries :=
    (List.perm_ext_iff_of_nodup (distinct first) (distinct second)).mpr fun entry => by
      rw [← get?_eq_some_iff first, ← get?_eq_some_iff second, same]
  refine perm.eq_of_pairwise (fun left right _ _ below above => ?_) first.ascending second.ascending
  exact absurd above below.not_gt

end OrderedMap

end S3Manager.Library
