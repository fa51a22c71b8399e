import Mathlib.Data.List.Basic
import Mathlib.Order.Lattice

/-! Pages of an ascending list. A page is the next few items after a mark, and
the mark that goes on from it is the name of its last item. -/

set_option autoImplicit false

namespace S3Manager.Library.Paging

variable {Item Mark : Type} [LinearOrder Mark] (name : Item → Mark)

def Ascending (items : List Item) : Prop :=
  items.Pairwise fun left right => name left < name right

/-- The items that come after the mark, or all of them without one. -/
def after (items : List Item) : Option Mark → List Item
  | none => items
  | some mark => items.filter fun item => decide (mark < name item)

/-- The items that come before the mark. -/
def before (items : List Item) (mark : Mark) : List Item :=
  items.filter fun item => decide (name item < mark)

/-- The mark behind a page, when more items follow it. -/
def nextMark (size : Nat) (items : List Item) : Option Mark :=
  if size < items.length then (items.take size).getLast?.map name else none

variable {name}

theorem after_of_split {items front rest : List Item} {last : Item}
    (ascending : Ascending name items) (split : items = front ++ last :: rest) :
    after name items (some (name last)) = rest := by
  subst split
  obtain ⟨-, upper, cross⟩ := List.pairwise_append.mp ascending
  have frontGone : front.filter (fun item => decide (name last < name item)) = [] :=
    List.filter_eq_nil_iff.mpr fun item member => by
      simpa using (cross item member last List.mem_cons_self).le
  have restKept : rest.filter (fun item => decide (name last < name item)) = rest :=
    List.filter_eq_self.mpr fun item member => by
      simpa using (List.pairwise_cons.mp upper).1 item member
  simp only [after, List.filter_append, List.filter_cons, frontGone, restKept, lt_irrefl,
    decide_false, Bool.false_eq_true, if_false, List.nil_append]

theorem after_suffix {items : List Item} (ascending : Ascending name items) (mark : Option Mark) :
    ∃ front, items = front ++ after name items mark := by
  cases mark with
  | none => exact ⟨[], rfl⟩
  | some mark =>
      induction items with
      | nil => exact ⟨[], rfl⟩
      | cons item rest ih =>
          obtain ⟨above, restAscending⟩ := List.pairwise_cons.mp ascending
          by_cases later : mark < name item
          · have kept : rest.filter (fun item => decide (mark < name item)) = rest :=
              List.filter_eq_self.mpr fun other member => by
                simpa using later.trans (above other member)
            exact ⟨[], by simp [after, later, kept]⟩
          · obtain ⟨front, split⟩ := ih restAscending
            refine ⟨item :: front, ?_⟩
            simpa [after, later] using split

omit [LinearOrder Mark] in
theorem nextMark_isSome {size : Nat} {items : List Item} (live : 0 < size) :
    (nextMark name size items).isSome = decide (size < items.length) := by
  unfold nextMark
  split
  · next more =>
      have shown : items.take size ≠ [] := by
        simp only [ne_eq, List.take_eq_nil_iff, not_or]
        exact ⟨by omega, by rintro rfl; simp at more⟩
      simp [List.getLast?_eq_some_getLast shown, more]
  · next last => simp [last]

theorem after_nextMark {items : List Item} {mark : Option Mark} {next : Mark} {size : Nat}
    (ascending : Ascending name items)
    (more : nextMark name size (after name items mark) = some next) :
    after name items (some next) = (after name items mark).drop size := by
  obtain ⟨front, whole⟩ := after_suffix ascending mark
  generalize after name items mark = rest at more whole ⊢
  unfold nextMark at more
  split at more
  · obtain ⟨last, isLast, rfl⟩ := Option.map_eq_some_iff.mp more
    obtain ⟨init, page⟩ := List.getLast?_eq_some_iff.mp isLast
    refine @after_of_split _ _ _ name items (front ++ init) _ _ ascending ?_
    calc items = front ++ (rest.take size ++ rest.drop size) := by
          rw [List.take_append_drop, ← whole]
      _ = (front ++ init) ++ last :: rest.drop size := by rw [page]; simp
  · cases more

/-- An item is on the first page iff fewer items than the page has come before it. -/
theorem mem_take_iff {items : List Item} {item : Item} {count : Nat}
    (ascending : Ascending name items) (member : item ∈ items) :
    item ∈ items.take count ↔ (before name items (name item)).length < count := by
  obtain ⟨front, rest, rfl⟩ := List.append_of_mem member
  obtain ⟨-, upper, cross⟩ := List.pairwise_append.mp ascending
  have below : ∀ other ∈ front, name other < name item :=
    fun other inFront => cross other inFront item List.mem_cons_self
  have frontKept : front.filter (fun other => decide (name other < name item)) = front :=
    List.filter_eq_self.mpr fun other inFront => decide_eq_true (below other inFront)
  have restGone : rest.filter (fun other => decide (name other < name item)) = [] :=
    List.filter_eq_nil_iff.mpr fun other inRest => by
      simpa using ((List.pairwise_cons.mp upper).1 other inRest).le
  have counted : (before name (front ++ item :: rest) (name item)).length = front.length := by
    simp only [before, List.filter_append, List.filter_cons, frontKept, restGone, lt_irrefl, decide_false,
      Bool.false_eq_true, if_false, List.append_nil]
  rw [counted, List.take_append, List.mem_append]
  constructor
  · intro shown
    obtain inFront | inRest := shown
    · exact absurd (below item (List.mem_of_mem_take inFront)) (lt_irrefl _)
    · by_contra few
      rw [Nat.sub_eq_zero_of_le (Nat.not_lt.mp few)] at inRest
      cases inRest
  · intro room
    refine .inr ?_
    obtain ⟨more, left⟩ : ∃ more, count - front.length = more + 1 :=
      ⟨count - front.length - 1, by omega⟩
    rw [left, List.take_succ_cons]
    exact List.mem_cons_self

end S3Manager.Library.Paging
