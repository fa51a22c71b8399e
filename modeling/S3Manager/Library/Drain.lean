import S3Manager.Library.Paging

/-! Pages taken one after the other from a list that may be another one at every page. What
is drained has no name twice, shows only what some list offered, and misses nothing that all
of them offered. -/

set_option autoImplicit false

namespace S3Manager.Library.Paging

variable {Item Mark : Type} [LinearOrder Mark]

/-- From a mark on, these items are taken from lists that are offered, and the mark to go on
from, or none when a page was the last one. -/
inductive Drain (name : Item → Mark) (offered : List Item → Prop) :
    Option Mark → List Item → Option Mark → Prop where
  | last {items : List Item} {mark : Option Mark} (offers : offered items) :
      Drain name offered mark (after name items mark) none
  | page {items : List Item} {mark : Option Mark} {size : Nat} {next : Mark}
      (offers : offered items) (more : nextMark name size (after name items mark) = some next) :
      Drain name offered mark ((after name items mark).take size) (some next)
  | append {mark ended : Option Mark} {next : Mark} {front back : List Item} :
      Drain name offered mark front (some next) → Drain name offered (some next) back ended →
      Drain name offered mark (front ++ back) ended

section After

variable {name : Item → Mark} {items : List Item} {mark : Option Mark}

theorem mem_after {item : Item} :
    item ∈ after name items mark ↔ item ∈ items ∧ ∀ start ∈ mark, start < name item := by
  cases mark with
  | none => simp [after]
  | some start => simp [after]

theorem after_ascending (ascending : Ascending name items) :
    Ascending name (after name items mark) := by
  cases mark with
  | none => exact ascending
  | some start => exact ascending.filter _

omit [LinearOrder Mark] in
/-- The mark behind a page is the name of its last item. -/
theorem nextMark_split {size : Nat} {next : Mark} (more : nextMark name size items = some next) :
    ∃ init last, items = init ++ last :: items.drop size ∧ items.take size = init ++ [last] ∧
      next = name last := by
  unfold nextMark at more
  split at more
  · obtain ⟨last, isLast, rfl⟩ := Option.map_eq_some_iff.mp more
    obtain ⟨init, page⟩ := List.getLast?_eq_some_iff.mp isLast
    refine ⟨init, last, ?_, page, rfl⟩
    calc items = items.take size ++ items.drop size := (List.take_append_drop size items).symm
      _ = init ++ last :: items.drop size := by rw [page]; simp
  · cases more

theorem nextMark_between {size : Nat} {next : Mark}
    (ascending : Ascending name items) (more : nextMark name size items = some next) :
    (∀ item ∈ items.take size, name item ≤ next) ∧ ∀ item ∈ items.drop size, next < name item := by
  obtain ⟨init, last, split, page, rfl⟩ := nextMark_split more
  rw [split] at ascending
  obtain ⟨-, upper, cross⟩ := List.pairwise_append.mp ascending
  refine ⟨fun item taken => ?_, fun item left => (List.pairwise_cons.mp upper).1 item left⟩
  rw [page] at taken
  obtain early | late := List.mem_append.mp taken
  · exact (cross item early last List.mem_cons_self).le
  · rw [List.mem_singleton.mp late]

end After

section Laws

variable {name : Item → Mark} {offered : List Item → Prop} {mark ended : Option Mark}
  {taken : List Item}

theorem drain_offered (drain : Drain name offered mark taken ended) {item : Item}
    (member : item ∈ taken) : ∃ items, offered items ∧ item ∈ items := by
  induction drain with
  | last offers => exact ⟨_, offers, (mem_after.mp member).1⟩
  | page offers _ => exact ⟨_, offers, (mem_after.mp (List.mem_of_mem_take member)).1⟩
  | append _ _ front back =>
      obtain inFront | inBack := List.mem_append.mp member
      · exact front inFront
      · exact back inBack

/-- A drain goes on from a later mark than it started from. -/
theorem drain_advances (drain : Drain name offered mark taken ended) :
    ∀ start ∈ mark, ∀ stop ∈ ended, start < stop := by
  induction drain with
  | last offers => simp
  | @page items mark size next offers more =>
      rintro start begins stop ⟨⟩
      obtain ⟨init, last, split, -, rfl⟩ := nextMark_split more
      have member : last ∈ after name items mark := by
        rw [split]
        exact List.mem_append_right _ List.mem_cons_self
      exact (mem_after.mp member).2 start begins
  | append first second front back =>
      intro start begins stop ends
      exact (front start begins _ rfl).trans (back _ rfl stop ends)

variable (ascends : ∀ items, offered items → Ascending name items)

include ascends

/-- What is taken lies between the two marks. -/
theorem drain_between (drain : Drain name offered mark taken ended) :
    ∀ item ∈ taken, (∀ start ∈ mark, start < name item) ∧ ∀ stop ∈ ended, name item ≤ stop := by
  induction drain with
  | last offers => exact fun item member => ⟨(mem_after.mp member).2, by simp⟩
  | page offers more =>
      intro item member
      refine ⟨(mem_after.mp (List.mem_of_mem_take member)).2, ?_⟩
      rintro stop ⟨⟩
      exact (nextMark_between (after_ascending (ascends _ offers)) more).1 item member
  | append first second front back =>
      intro item member
      obtain inFront | inBack := List.mem_append.mp member
      · obtain ⟨above, below⟩ := front item inFront
        refine ⟨above, fun stop ends => ?_⟩
        exact (below _ rfl).trans (drain_advances second _ rfl stop ends).le
      · obtain ⟨above, below⟩ := back item inBack
        refine ⟨fun start begins => ?_, below⟩
        exact (drain_advances first start begins _ rfl).trans (above _ rfl)

theorem drain_ascending (drain : Drain name offered mark taken ended) : Ascending name taken := by
  induction drain with
  | last offers => exact after_ascending (ascends _ offers)
  | page offers _ => exact (after_ascending (ascends _ offers)).sublist (List.take_sublist _ _)
  | append first second front back =>
      refine List.pairwise_append.mpr ⟨front, back, fun left inFront right inBack => ?_⟩
      exact ((drain_between ascends first left inFront).2 _ rfl).trans_lt
        ((drain_between ascends second right inBack).1 _ rfl)

/-- A name that every offered list has behind the mark is taken, or still to come. -/
theorem drain_complete (drain : Drain name offered mark taken ended) {wanted : Mark}
    (there : ∀ items, offered items → ∃ item ∈ items, name item = wanted)
    (ahead : ∀ start ∈ mark, start < wanted) :
    (∃ item ∈ taken, name item = wanted) ∨ ∃ stop ∈ ended, stop < wanted := by
  induction drain with
  | last offers =>
      obtain ⟨item, member, rfl⟩ := there _ offers
      exact .inl ⟨item, mem_after.mpr ⟨member, ahead⟩, rfl⟩
  | @page items mark size next offers more =>
      obtain ⟨item, member, rfl⟩ := there _ offers
      have remains : item ∈ after name items mark := mem_after.mpr ⟨member, ahead⟩
      rw [← List.take_append_drop size (after name items mark), List.mem_append] at remains
      obtain shown | left := remains
      · exact .inl ⟨item, shown, rfl⟩
      · exact .inr ⟨next, rfl, (nextMark_between (after_ascending (ascends _ offers)) more).2 item left⟩
  | append first second front back =>
      obtain ⟨item, member, named⟩ | ⟨stop, ends, before⟩ := front ahead
      · exact .inl ⟨item, List.mem_append_left _ member, named⟩
      · cases ends
        obtain ⟨item, member, named⟩ | later := back (by rintro start ⟨⟩; exact before)
        · exact .inl ⟨item, List.mem_append_right _ member, named⟩
        · exact .inr later

end Laws

end S3Manager.Library.Paging
