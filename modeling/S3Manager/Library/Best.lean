import Mathlib.Data.List.Induction
import Mathlib.Data.List.Sort

/-! The best few of a list under an order. They are what a sort cut short leaves,
and what a bounded heap holds after every item has been pushed through it. -/

set_option autoImplicit false

namespace S3Manager.Library

variable {Item : Type}

/-- `best` holds as many items of the pool as it may, and none that was left out
goes before one that was taken. -/
structure Best (goesBefore : Item → Item → Prop) (count : Nat) (pool best : List Item) : Prop where
  size : best.length = min count pool.length
  split : ∃ lost, (best ++ lost).Perm pool ∧
    ∀ winner ∈ best, ∀ loser ∈ lost, goesBefore winner loser

namespace Best

variable {goesBefore other : Item → Item → Prop} {count : Nat} {pool best : List Item}

theorem within (holds : Best goesBefore count pool best) {item : Item} (member : item ∈ best) :
    item ∈ pool := by
  obtain ⟨lost, same, _⟩ := holds.split
  exact same.mem_iff.mp (List.mem_append_left _ member)

theorem of_sorted {sorted : List Item} (same : sorted.Perm pool)
    (ordered : sorted.Pairwise goesBefore) : Best goesBefore count pool (sorted.take count) where
  size := by rw [List.length_take, same.length_eq]
  split := by
    refine ⟨sorted.drop count, by rw [List.take_append_drop]; exact same, ?_⟩
    rw [← List.take_append_drop count sorted] at ordered
    exact (List.pairwise_append.mp ordered).2.2

theorem of_mergeSort {below : Item → Item → Bool}
    (trans : ∀ a b c, below a b = true → below b c = true → below a c = true)
    (total : ∀ a b, (below a b || below b a) = true) (pool : List Item) :
    Best (fun a b => below a b = true) count pool ((pool.mergeSort below).take count) :=
  of_sorted (List.mergeSort_perm pool below) (List.pairwise_mergeSort trans total pool)

theorem of_perm {again : List Item} (holds : Best goesBefore count pool best)
    (same : again.Perm best) : Best goesBefore count pool again where
  size := same.length_eq.trans holds.size
  split := by
    obtain ⟨lost, whole, ahead⟩ := holds.split
    exact ⟨lost, (same.append_right lost).trans whole,
      fun winner won => ahead winner (same.mem_iff.mp won)⟩

theorem mono (holds : Best goesBefore count pool best)
    (weaker : ∀ winner ∈ pool, ∀ loser ∈ pool, goesBefore winner loser → other winner loser) :
    Best other count pool best where
  size := holds.size
  split := by
    obtain ⟨lost, same, ahead⟩ := holds.split
    refine ⟨lost, same, fun winner won loser left => ?_⟩
    exact weaker winner (holds.within won) loser
      (same.mem_iff.mp (List.mem_append_right _ left)) (ahead winner won loser left)

end Best

section Heap

variable (below : Item → Item → Prop) [DecidableRel below] (bound : Nat)

/-- Push an item, and pop the least one when the heap has grown full its bound. -/
def pushBounded (heap : List Item) (item : Item) : List Item :=
  let pushed := heap.orderedInsert below item
  if bound < pushed.length then pushed.tail else pushed

/-- A heap in order that holds the greatest of the items seen so far. -/
structure HoldsGreatest (seen heap : List Item) : Prop where
  ordered : heap.Pairwise below
  best : Best (fun winner loser => below loser winner) bound seen heap

variable {below bound}

omit [DecidableRel below] in
theorem holdsGreatest_nil : HoldsGreatest below bound [] [] where
  ordered := List.Pairwise.nil
  best := ⟨by simp, [], List.Perm.refl _, by simp⟩

variable [Std.Total below] [IsTrans Item below]

theorem HoldsGreatest.push {seen heap : List Item}
    (holds : HoldsGreatest below bound seen heap) (item : Item) :
    HoldsGreatest below bound (seen ++ [item]) (pushBounded below bound heap item) := by
  obtain ⟨lost, same, above⟩ := holds.best.split
  have pushed := List.perm_orderedInsert below item heap
  have ordered : (heap.orderedInsert below item).Pairwise below :=
    holds.ordered.orderedInsert item heap
  have grown : (heap.orderedInsert below item).length = heap.length + 1 := pushed.length_eq
  have whole : (heap.orderedInsert below item ++ lost).Perm (seen ++ [item]) := by
    calc heap.orderedInsert below item ++ lost
        _ |>.Perm (item :: heap ++ lost) := pushed.append_right lost
        _ |>.Perm (item :: seen) := same.cons item
        _ |>.Perm (seen ++ [item]) := (List.perm_append_singleton item seen).symm
  have size := holds.best.size
  unfold pushBounded
  dsimp only
  split_ifs with full
  · obtain ⟨least, rest, shape⟩ := List.exists_cons_of_length_eq_add_one grown
    rw [shape] at ordered whole pushed grown full
    rw [shape, List.tail_cons]
    obtain ⟨lowest, restOrdered⟩ := List.pairwise_cons.mp ordered
    refine ⟨restOrdered, ?_, least :: lost, List.perm_middle.trans whole, ?_⟩
    · rw [List.length_append, List.length_singleton]
      simp only [List.length_cons] at grown full
      omega
    · intro winner won loser left
      obtain rfl | earlier := List.mem_cons.mp left
      · exact lowest winner won
      · -- an item lost before lies below the whole heap, the popped one included
        obtain rfl | held := List.mem_cons.mp (pushed.mem_iff.mp List.mem_cons_self)
        · exact above winner (pushed.cons_inv.mem_iff.mp won) loser earlier
        · exact trans_of below (above least held loser earlier) (lowest winner won)
  · -- there was room, so nothing has been lost so far
    have room : heap.length = seen.length := by
      rw [grown] at full
      omega
    have none : lost = [] := by
      have counted := same.length_eq
      rw [List.length_append, room] at counted
      exact List.length_eq_zero_iff.mp (by omega)
    refine ⟨ordered, ?_, lost, whole, ?_⟩
    · rw [List.length_append, List.length_singleton]
      omega
    · intro winner _ loser left
      rw [none] at left
      cases left

/-- Pushing every item through the heap leaves the greatest ones in it. -/
theorem holdsGreatest_foldl (items : List Item) :
    HoldsGreatest below bound items (items.foldl (pushBounded below bound) []) := by
  induction items using List.reverseRecOn with
  | nil => exact holdsGreatest_nil
  | append_singleton front item ih =>
      rw [List.foldl_append]
      exact ih.push item

end Heap

end S3Manager.Library
