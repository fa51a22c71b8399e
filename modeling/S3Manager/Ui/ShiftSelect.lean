import Mathlib.Data.Finset.Basic
import S3Manager.Library.Replay
import S3Manager.Python.Text

/-! `useShiftSelect`: the selection of the file browser, its updaters with the anchor they
read and move, and what clicks are meant to do. -/

set_option autoImplicit false

namespace S3Manager.Ui

open Python Library

section Hook

/-- The selected names, and the anchor of the hook. -/
abbrev Selection := Held (Finset Str) (Option Str)

/-- The anchor and the two ends of a range operation, where the branch for it is taken.
An anchor that is an empty text counts as none. -/
def shiftRange (name : Str) (shiftKey : Bool) (orderedNames : List Str) (anchorRef : Option Str) :
    Option (Str × Nat × Nat) := do
  let anchor ← anchorRef
  if shiftKey && !anchor.isEmpty then do
    let anchorIdx ← orderedNames.idxOf? anchor
    let targetIdx ← orderedNames.idxOf? name
    some (anchor, min anchorIdx targetIdx, max anchorIdx targetIdx)
  else none

/-- The loop over the range, from its first to its last row. -/
def forceRange (orderedNames : List Str) (first last : Nat) (anchorIsSelected : Bool)
    (prev : Finset Str) : Finset Str :=
  ((orderedNames.take (last + 1)).drop first).foldl (fun next itemName =>
    if anchorIsSelected then insert itemName next else next.erase itemName) prev

/-- The plain toggle of one name. -/
def toggleName (name : Str) (prev : Finset Str) : Finset Str :=
  if name ∈ prev then prev.erase name else insert name prev

/-- The updater of `handleToggle`. -/
def handleToggle (name : Str) (shiftKey : Bool) (orderedNames : List Str) :
    Updater (Finset Str) (Option Str) := fun prev anchorRef =>
  match shiftRange name shiftKey orderedNames anchorRef with
  | some (anchor, first, last) =>
      ⟨forceRange orderedNames first last (decide (anchor ∈ prev)) prev, anchorRef⟩
  | none => ⟨toggleName name prev, some name⟩

/-- The updater of `toggleAll`. -/
def toggleAll (orderedNames : List Str) : Updater (Finset Str) (Option Str) := fun prev _ =>
  let allSelected := !orderedNames.isEmpty && orderedNames.all fun name => decide (name ∈ prev)
  ⟨if allSelected then ∅ else orderedNames.toFinset, none⟩

inductive SelectAction where
  | toggle (name : Str) (shiftKey : Bool) (orderedNames : List Str)
  | toggleAll (orderedNames : List Str)
  | clear

/-- What an action does; `clear` sets the state and the anchor whatever they were. -/
def SelectAction.updater : SelectAction → Updater (Finset Str) (Option Str)
  | .toggle name shiftKey orderedNames => handleToggle name shiftKey orderedNames
  | .toggleAll orderedNames => Ui.toggleAll orderedNames
  | .clear => fun _ _ => ⟨∅, none⟩

/-- The state after an action whose updater is evaluated once. -/
def Selection.after (selection : Selection) (action : SelectAction) : Selection :=
  action.updater.evaluate .once selection

end Hook

section Reference

/-- A row of the list from the anchor to the clicked row, in whichever order they stand. -/
def Between (orderedNames : List Str) (anchor name row : Str) : Prop :=
  ∃ i j k, orderedNames.idxOf? anchor = some i ∧ orderedNames.idxOf? name = some j ∧
    orderedNames[k]? = some row ∧ min i j ≤ k ∧ k ≤ max i j

def AnchorShown (selection : Selection) (orderedNames : List Str) : Prop :=
  ∃ anchor, selection.cell = some anchor ∧ anchor ∈ orderedNames

/-- What an action is meant to do. -/
inductive Meant (selection : Selection) : SelectAction → Selection → Prop where
  /-- A plain click, or a shift-click that has no anchor to reach from. -/
  | click {name : Str} {shiftKey : Bool} {orderedNames : List Str} {next : Selection} :
      (shiftKey = true → name ∈ orderedNames → ¬ AnchorShown selection orderedNames) →
      next.cell = some name →
      (∀ row, row ∈ next.value ↔
        if row = name then name ∉ selection.value else row ∈ selection.value) →
      Meant selection (.toggle name shiftKey orderedNames) next
  | range {name anchor : Str} {orderedNames : List Str} {next : Selection} :
      selection.cell = some anchor → anchor ∈ orderedNames → name ∈ orderedNames →
      next.cell = some anchor →
      (∀ row, (Between orderedNames anchor name row →
          (row ∈ next.value ↔ anchor ∈ selection.value)) ∧
        (¬ Between orderedNames anchor name row →
          (row ∈ next.value ↔ row ∈ selection.value))) →
      Meant selection (.toggle name true orderedNames) next
  | all {orderedNames : List Str} {next : Selection} :
      next.cell = none →
      (∀ row, row ∈ next.value ↔
        row ∈ orderedNames ∧ ∃ name ∈ orderedNames, name ∉ selection.value) →
      Meant selection (.toggleAll orderedNames) next
  | clear {next : Selection} : next.cell = none → next.value = ∅ → Meant selection .clear next

/-- A shift-click on a shown row reaches from a shown anchor with a name, or it has no
shown anchor and its row no name. -/
def SafeShift (selection : Selection) : SelectAction → Prop
  | .toggle name true orderedNames => name ∈ orderedNames →
      (∃ anchor, selection.cell = some anchor ∧ anchor ∈ orderedNames ∧ anchor ≠ []) ∨
        (name = [] ∧ ¬ AnchorShown selection orderedNames)
  | _ => True

/-- Every action has the property in the state it is met in, with single evaluations. -/
def Along (property : Selection → SelectAction → Prop) : Selection → List SelectAction → Prop
  | _, [] => True
  | selection, action :: rest =>
      property selection action ∧ Along property (selection.after action) rest

end Reference

section Range

variable {orderedNames : List Str} {name anchor row : Str} {prev : Finset Str}
  {anchorRef : Option Str} {shiftKey : Bool} {first last : Nat}

theorem mem_forceRange (selected : Bool) : row ∈ forceRange orderedNames first last selected prev ↔
    if row ∈ (orderedNames.take (last + 1)).drop first then selected = true else row ∈ prev := by
  unfold forceRange
  generalize (orderedNames.take (last + 1)).drop first = rows
  induction rows generalizing prev with
  | nil => simp
  | cons item rest ih =>
      rw [List.foldl_cons, ih]
      by_cases later : row ∈ rest
      · simp [later]
      · by_cases here : row = item
        · subst here
          cases selected <;> simp [later]
        · cases selected <;> simp [later, here]

theorem mem_slice : row ∈ (orderedNames.take (last + 1)).drop first ↔
    ∃ k, orderedNames[k]? = some row ∧ first ≤ k ∧ k ≤ last := by
  rw [List.mem_iff_getElem?]
  constructor
  · rintro ⟨k, found⟩
    rw [List.getElem?_drop, List.getElem?_take] at found
    split at found
    · exact ⟨first + k, found, by omega, by omega⟩
    · cases found
  · rintro ⟨k, found, low, high⟩
    refine ⟨k - first, ?_⟩
    rw [List.getElem?_drop, List.getElem?_take, Nat.add_sub_cancel' low, if_pos (by omega)]
    exact found

/-- The branch for a range is taken. -/
def Reaches (name : Str) (shiftKey : Bool) (orderedNames : List Str) (anchorRef : Option Str) :
    Prop :=
  shiftKey = true ∧ name ∈ orderedNames ∧
    ∃ anchor, anchorRef = some anchor ∧ anchor ∈ orderedNames ∧ anchor ≠ []

theorem index_of_mem (member : name ∈ orderedNames) : ∃ i, orderedNames.idxOf? name = some i := by
  cases found : orderedNames.idxOf? name with
  | some i => exact ⟨i, rfl⟩
  | none => exact absurd member (List.idxOf?_eq_none_iff.mp found)

theorem shiftRange_reaches (reaches : Reaches name shiftKey orderedNames (some anchor)) :
    ∃ i j, orderedNames.idxOf? anchor = some i ∧ orderedNames.idxOf? name = some j ∧
      shiftRange name shiftKey orderedNames (some anchor) = some (anchor, min i j, max i j) := by
  obtain ⟨shift, shown, _, ⟨⟩, anchorShown, named⟩ := reaches
  obtain ⟨i, anchorAt⟩ := index_of_mem anchorShown
  obtain ⟨j, nameAt⟩ := index_of_mem shown
  exact ⟨i, j, anchorAt, nameAt, by simp [shiftRange, shift, named, anchorAt, nameAt]⟩

theorem shiftRange_plain (plain : ¬ Reaches name shiftKey orderedNames anchorRef) :
    shiftRange name shiftKey orderedNames anchorRef = none := by
  cases anchorRef with
  | none => rfl
  | some anchor =>
      by_cases shift : (shiftKey && !anchor.isEmpty) = true
      · obtain ⟨pressed, named⟩ : shiftKey = true ∧ anchor ≠ [] := by simpa using shift
        by_cases anchorShown : anchor ∈ orderedNames
        · have hidden : name ∉ orderedNames := fun shown =>
            plain ⟨pressed, shown, anchor, rfl, anchorShown, named⟩
          have nowhere := List.idxOf?_eq_none_iff.mpr hidden
          simp [shiftRange, nowhere]
        · have nowhere := List.idxOf?_eq_none_iff.mpr anchorShown
          simp [shiftRange, nowhere]
      · show (if (shiftKey && !anchor.isEmpty) = true then _ else none) = none
        exact if_neg shift

theorem toggle_plain (plain : ¬ Reaches name shiftKey orderedNames anchorRef) :
    handleToggle name shiftKey orderedNames prev anchorRef = ⟨toggleName name prev, some name⟩ := by
  rw [handleToggle, shiftRange_plain plain]

theorem toggle_reaches (reaches : Reaches name shiftKey orderedNames (some anchor)) :
    ∃ next, handleToggle name shiftKey orderedNames prev (some anchor) = ⟨next, some anchor⟩ ∧
      ∀ row, (Between orderedNames anchor name row → (row ∈ next ↔ anchor ∈ prev)) ∧
        (¬ Between orderedNames anchor name row → (row ∈ next ↔ row ∈ prev)) := by
  obtain ⟨i, j, anchorAt, nameAt, range⟩ := shiftRange_reaches reaches
  refine ⟨_, by rw [handleToggle, range], fun row => ?_⟩
  rw [mem_forceRange]
  constructor
  · rintro ⟨_, _, k, same, other, found, low, high⟩
    rw [anchorAt] at same
    rw [nameAt] at other
    obtain rfl := Option.some.inj same
    obtain rfl := Option.some.inj other
    rw [if_pos (mem_slice.mpr ⟨k, found, low, high⟩), decide_eq_true_eq]
  · intro outside
    refine iff_of_eq (if_neg fun inside => ?_)
    obtain ⟨k, found, low, high⟩ := mem_slice.mp inside
    exact outside ⟨i, j, k, anchorAt, nameAt, found, low, high⟩

theorem mem_toggleName : row ∈ toggleName name prev ↔
    if row = name then name ∉ prev else row ∈ prev := by
  unfold toggleName
  by_cases selected : name ∈ prev <;> by_cases same : row = name <;> simp [selected, same]

theorem toggleName_ne : toggleName name prev ≠ prev := by
  intro same
  have changed := @mem_toggleName name name prev
  rw [same, if_pos rfl] at changed
  exact iff_not_self changed

theorem between_self (shown : Between orderedNames name name row) : row = name := by
  obtain ⟨i, j, k, found, same, here, low, high⟩ := shown
  rw [found] at same
  obtain rfl := Option.some.inj same
  obtain rfl : i = k := by omega
  obtain ⟨inside, first, -⟩ := List.idxOf?_eq_some_iff.mp found
  rw [List.getElem?_eq_getElem inside, first] at here
  exact (Option.some.inj here).symm

/-- From the clicked row itself, the range operation changes nothing. -/
theorem toggle_self (reaches : Reaches name shiftKey orderedNames (some name)) :
    handleToggle name shiftKey orderedNames prev (some name) = ⟨prev, some name⟩ := by
  obtain ⟨next, toggled, rows⟩ := @toggle_reaches _ _ _ prev _ reaches
  have same : next = prev := by
    ext row
    by_cases between : Between orderedNames name name row
    · obtain rfl := between_self between
      exact (rows row).1 between
    · exact (rows row).2 between
  rw [toggled, same]

end Range

section Steps

variable {selection : Selection} {orderedNames : List Str} {name : Str} {shiftKey : Bool}

/-- The second evaluation finds the clicked row as its anchor. -/
theorem reaches_self : Reaches name shiftKey orderedNames (some name) ↔
    shiftKey = true ∧ name ∈ orderedNames ∧ name ≠ [] := by
  constructor
  · rintro ⟨shift, shown, _, ⟨⟩, -, named⟩
    exact ⟨shift, shown, named⟩
  · rintro ⟨shift, shown, named⟩
    exact ⟨shift, shown, name, rfl, shown, named⟩

theorem toggle_repeats (reaches : Reaches name shiftKey orderedNames selection.cell) :
    (handleToggle name shiftKey orderedNames).Repeats selection := by
  obtain ⟨value, cell⟩ := selection
  obtain ⟨-, -, anchor, rfl, -⟩ := id reaches
  obtain ⟨next, toggled, -⟩ := @toggle_reaches _ _ _ value _ reaches
  show handleToggle name shiftKey orderedNames value
    (handleToggle name shiftKey orderedNames value (some anchor)).cell =
      handleToggle name shiftKey orderedNames value (some anchor)
  rw [toggled]
  exact toggled

theorem toggle_once (plain : ¬ Reaches name shiftKey orderedNames selection.cell) :
    (handleToggle name shiftKey orderedNames).evaluate .once selection =
      ⟨toggleName name selection.value, some name⟩ :=
  toggle_plain plain

theorem toggle_twice (plain : ¬ Reaches name shiftKey orderedNames selection.cell) :
    (handleToggle name shiftKey orderedNames).evaluate .twiceKeepLast selection =
      handleToggle name shiftKey orderedNames selection.value (some name) := by
  show handleToggle name shiftKey orderedNames selection.value
    (handleToggle name shiftKey orderedNames selection.value selection.cell).cell = _
  rw [toggle_plain plain]

/-- A second evaluation undoes a shift-click without an anchor to reach from. -/
theorem toggle_repeats_iff : (handleToggle name shiftKey orderedNames).Repeats selection ↔
    (shiftKey = true → name ∈ orderedNames → name ≠ [] →
      Reaches name shiftKey orderedNames selection.cell) := by
  by_cases reaches : Reaches name shiftKey orderedNames selection.cell
  · exact iff_of_true (toggle_repeats reaches) fun _ _ _ => reaches
  by_cases again : Reaches name shiftKey orderedNames (some name)
  · refine iff_of_false (fun repeats => ?_) fun must => ?_
    · rw [Updater.Repeats, toggle_once reaches, toggle_twice reaches, toggle_self again] at repeats
      exact toggleName_ne (congrArg Held.value repeats).symm
    · obtain ⟨shift, shown, named⟩ := reaches_self.mp again
      exact reaches (must shift shown named)
  · refine iff_of_true ?_ fun shift shown named =>
      absurd (reaches_self.mpr ⟨shift, shown, named⟩) again
    rw [Updater.Repeats, toggle_once reaches, toggle_twice reaches, toggle_plain again]

theorem toggle_sharp : (handleToggle name shiftKey orderedNames).Sharp := by
  intro selection same
  by_cases reaches : Reaches name shiftKey orderedNames selection.cell
  · exact toggle_repeats reaches
  refine toggle_repeats_iff.mpr fun shift shown named => ?_
  rw [toggle_once reaches, toggle_twice reaches,
    toggle_self (reaches_self.mpr ⟨shift, shown, named⟩)] at same
  exact absurd same.symm toggleName_ne

theorem updater_sharp (action : SelectAction) : action.updater.Sharp := by
  cases action with
  | toggle name shiftKey orderedNames => exact toggle_sharp
  | toggleAll orderedNames => exact fun _ _ => rfl
  | clear => exact fun _ _ => rfl

theorem toggle_meant (named : shiftKey = true → name ∈ orderedNames → selection.cell = some [] →
    [] ∉ orderedNames) : Meant selection (.toggle name shiftKey orderedNames)
      (selection.after (.toggle name shiftKey orderedNames)) := by
  by_cases reaches : Reaches name shiftKey orderedNames selection.cell
  · obtain ⟨rfl, shown, anchor, cell, anchorShown, -⟩ := id reaches
    rw [cell] at reaches
    obtain ⟨next, toggled, rows⟩ := @toggle_reaches _ _ _ selection.value _ reaches
    have after : selection.after (.toggle name true orderedNames) = ⟨next, some anchor⟩ := by
      show handleToggle name true orderedNames selection.value selection.cell = _
      rw [cell, toggled]
    rw [after]
    exact .range cell anchorShown shown rfl rows
  · have after : selection.after (.toggle name shiftKey orderedNames) =
        ⟨toggleName name selection.value, some name⟩ := toggle_once reaches
    rw [after]
    refine .click ?_ rfl fun row => mem_toggleName
    rintro shift shown ⟨anchor, cell, anchorShown⟩
    by_cases unnamed : anchor = []
    · subst unnamed
      exact named shift shown cell anchorShown
    · exact reaches ⟨shift, shown, anchor, cell, anchorShown, unnamed⟩

/-- A single evaluation does what is meant, but for an anchor without a name. -/
theorem toggle_meant_iff : Meant selection (.toggle name shiftKey orderedNames)
      (selection.after (.toggle name shiftKey orderedNames)) ↔
    (shiftKey = true → name ∈ orderedNames → selection.cell = some [] → [] ∉ orderedNames) := by
  refine ⟨fun meant shift shown unnamed anchorShown => ?_, toggle_meant⟩
  have plain : ¬ Reaches name shiftKey orderedNames selection.cell := by
    rintro ⟨-, -, anchor, cell, -, live⟩
    exact live (Option.some.inj (cell.symm.trans unnamed))
  have after : selection.after (.toggle name shiftKey orderedNames) =
      ⟨toggleName name selection.value, some name⟩ := toggle_once plain
  rw [after] at meant
  cases meant with
  | click lone _ _ => exact lone shift shown ⟨[], unnamed, anchorShown⟩
  | @range _ anchor _ _ cell _ _ kept rows =>
      obtain rfl : [] = anchor := Option.some.inj (unnamed.symm.trans cell)
      obtain rfl : name = [] := Option.some.inj kept
      obtain ⟨i, found⟩ := index_of_mem anchorShown
      obtain ⟨inside, here, -⟩ := List.idxOf?_eq_some_iff.mp found
      have between : Between orderedNames [] [] [] :=
        ⟨i, i, i, found, found, by rw [List.getElem?_eq_getElem inside, here], by simp⟩
      have forced := (rows []).1 between
      rw [mem_toggleName, if_pos rfl] at forced
      exact (iff_not_self forced.symm).elim

theorem all_meant : Meant selection (.toggleAll orderedNames)
    (selection.after (.toggleAll orderedNames)) := by
  refine .all rfl fun row => ?_
  show row ∈ (if (!orderedNames.isEmpty &&
    orderedNames.all fun name => decide (name ∈ selection.value)) = true then ∅
      else orderedNames.toFinset) ↔ _
  split
  · next every =>
      obtain ⟨-, every⟩ : orderedNames ≠ [] ∧ ∀ name ∈ orderedNames, name ∈ selection.value := by
        simpa using every
      refine iff_of_false (Finset.notMem_empty row) ?_
      rintro ⟨-, name, shown, unselected⟩
      exact unselected (every name shown)
  · next some_ =>
      rw [List.mem_toFinset]
      refine ⟨fun shown => ⟨shown, ?_⟩, fun both => both.1⟩
      by_contra none
      have every : ∀ name ∈ orderedNames, name ∈ selection.value := by simpa using none
      refine some_ ?_
      simpa [List.ne_nil_of_mem shown] using every

theorem safeShift_iff (action : SelectAction) : SafeShift selection action ↔
    action.updater.Repeats selection ∧ Meant selection action (selection.after action) := by
  cases action with
  | toggleAll orderedNames => exact iff_of_true trivial ⟨rfl, all_meant⟩
  | clear => exact iff_of_true trivial ⟨rfl, .clear rfl rfl⟩
  | toggle name shiftKey orderedNames =>
      rw [toggle_meant_iff]
      show _ ↔ (handleToggle name shiftKey orderedNames).Repeats selection ∧ _
      rw [toggle_repeats_iff]
      cases shiftKey with
      | false => simp [SafeShift]
      | true =>
          constructor
          · intro safe
            refine ⟨fun _ shown named => ?_, fun _ shown unnamed anchorShown => ?_⟩
            · obtain ⟨anchor, cell, anchorShown, live⟩ | ⟨nameless, -⟩ := safe shown
              · exact ⟨rfl, shown, anchor, cell, anchorShown, live⟩
              · exact absurd nameless named
            · obtain ⟨anchor, cell, -, live⟩ | ⟨-, lone⟩ := safe shown
              · exact live (Option.some.inj (cell.symm.trans unnamed))
              · exact lone ⟨[], unnamed, anchorShown⟩
          · rintro ⟨reaching, named⟩ shown
            by_cases reaches : Reaches name true orderedNames selection.cell
            · exact .inl reaches.2.2
            refine .inr ⟨by_contra fun live => reaches (reaching rfl shown live), ?_⟩
            rintro ⟨anchor, cell, anchorShown⟩
            by_cases unnamed : anchor = []
            · subst unnamed
              exact named rfl shown cell anchorShown
            · exact reaches ⟨rfl, shown, anchor, cell, anchorShown, unnamed⟩

end Steps

section Runs

variable {selection : Selection} {actions : List SelectAction}

theorem along_iff {first second : Selection → SelectAction → Prop}
    (same : ∀ selection action, first selection action ↔ second selection action) :
    Along first selection actions ↔ Along second selection actions := by
  induction actions generalizing selection with
  | nil => exact Iff.rfl
  | cons action rest ih => exact and_congr (same selection action) ih

theorem along_and {first second : Selection → SelectAction → Prop} :
    Along (fun selection action => first selection action ∧ second selection action)
      selection actions ↔ Along first selection actions ∧ Along second selection actions := by
  induction actions generalizing selection with
  | nil => simp [Along]
  | cons action rest ih =>
      simp only [Along, ih]
      constructor
      · rintro ⟨⟨here, also⟩, later, alsoLater⟩
        exact ⟨⟨here, later⟩, also, alsoLater⟩
      · rintro ⟨⟨here, later⟩, also, alsoLater⟩
        exact ⟨⟨here, also⟩, later, alsoLater⟩

theorem allRepeat_iff : Updater.AllRepeat selection (actions.map SelectAction.updater) ↔
    Along (fun selection action => action.updater.Repeats selection) selection actions := by
  induction actions generalizing selection with
  | nil => exact Iff.rfl
  | cons action rest ih => exact and_congr Iff.rfl ih

/-- However often the updaters are evaluated, the same rows are selected after each action,
and each action does what is meant, exactly when every shift-click is safe. -/
theorem shift_select_iff (actions : List SelectAction) :
    ((∀ steps : List (Evaluation × Updater (Finset Str) (Option Str)),
        steps.map Prod.snd = actions.map SelectAction.updater →
          Updater.values ⟨∅, none⟩ steps =
            Updater.values ⟨∅, none⟩ (Updater.always .once (actions.map SelectAction.updater))) ∧
      Along (fun selection action => Meant selection action (selection.after action))
        ⟨∅, none⟩ actions) ↔
      Along SafeShift ⟨∅, none⟩ actions := by
  have sharp : ∀ updater ∈ actions.map SelectAction.updater, updater.Sharp := by
    intro updater member
    obtain ⟨action, -, rfl⟩ := List.mem_map.mp member
    exact updater_sharp action
  rw [Updater.values_eq_iff sharp, allRepeat_iff, ← along_and]
  exact along_iff fun selection action => (safeShift_iff action).symm

/-- A shift-click on the only row, first thing: evaluated twice, it selects nothing. And from
a row without a name a shift-click does not reach. -/
theorem shift_click_lost :
    Updater.values ⟨∅, none⟩
        [(.once, SelectAction.updater (.toggle (lit "c") true [lit "c"]))] = [{lit "c"}] ∧
      Updater.values ⟨∅, none⟩
        [(.twiceKeepLast, SelectAction.updater (.toggle (lit "c") true [lit "c"]))] = [∅] ∧
      (Selection.after ⟨{[]}, some []⟩ (.toggle (lit "c") true [[], lit "b", lit "c"])).value =
        {[], lit "c"} := by
  refine ⟨by decide, by decide, by decide⟩

end Runs

end S3Manager.Ui
