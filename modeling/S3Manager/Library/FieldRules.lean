import S3Manager.Library.Assoc

/-! Revising a record field by field. Each rule reads and writes the field of its own
key only, and may refuse what it finds there; so a list of rules for different keys
accepts a record as soon as each rule accepts its own field. -/

set_option autoImplicit false

namespace S3Manager.Library

/-- A rule for one field: what it is set to, or none to leave it as it is. -/
structure FieldRule (Key Value Error : Type) where
  key : Key
  revise : Option Value → Except Error (Option Value)

namespace FieldRule

variable {Key Value Error : Type} [DecidableEq Key]

def apply (rule : FieldRule Key Value Error) (record : List (Key × Value)) :
    Except Error (List (Key × Value)) :=
  match rule.revise (Assoc.get? record rule.key) with
  | .error error => .error error
  | .ok none => .ok record
  | .ok (some value) => .ok (Assoc.set record rule.key value)

def applyAll : List (FieldRule Key Value Error) → List (Key × Value) →
    Except Error (List (Key × Value))
  | [], record => .ok record
  | rule :: rest, record =>
      match rule.apply record with
      | .error error => .error error
      | .ok revised => applyAll rest revised

/-- The field is accepted by the rule, and this is what it becomes. -/
def Settles (rule : FieldRule Key Value Error) (before after : Option Value) : Prop :=
  ∃ value, rule.revise before = .ok value ∧ after = value.or before

section Laws

variable {rule : FieldRule Key Value Error} {rules : List (FieldRule Key Value Error)}
  {record after : List (Key × Value)} {key : Key}

theorem apply_self (applied : rule.apply record = .ok after) :
    rule.Settles (Assoc.get? record rule.key) (Assoc.get? after rule.key) := by
  unfold apply at applied
  cases revised : rule.revise (Assoc.get? record rule.key) with
  | error error =>
      rw [revised] at applied
      cases applied
  | ok value =>
      rw [revised] at applied
      cases value with
      | none =>
          obtain rfl := Except.ok.inj applied
          exact ⟨none, revised, Option.none_or.symm⟩
      | some value =>
          obtain rfl := Except.ok.inj applied
          exact ⟨some value, revised, by rw [Assoc.get?_set_self, Option.some_or]⟩

theorem apply_other (applied : rule.apply record = .ok after) (different : key ≠ rule.key) :
    Assoc.get? after key = Assoc.get? record key := by
  unfold apply at applied
  cases revised : rule.revise (Assoc.get? record rule.key) with
  | error error =>
      rw [revised] at applied
      cases applied
  | ok value =>
      rw [revised] at applied
      cases value with
      | none => rw [Except.ok.inj applied]
      | some value =>
          obtain rfl := Except.ok.inj applied
          exact Assoc.get?_set_ne record value different

theorem applyAll_cons (applied : applyAll (rule :: rules) record = .ok after) :
    ∃ between, rule.apply record = .ok between ∧ applyAll rules between = .ok after := by
  rw [applyAll] at applied
  cases first : rule.apply record with
  | error error =>
      rw [first] at applied
      cases applied
  | ok between =>
      rw [first] at applied
      exact ⟨between, rfl, applied⟩

theorem applyAll_other (applied : applyAll rules record = .ok after)
    (untouched : ∀ rule ∈ rules, key ≠ rule.key) :
    Assoc.get? after key = Assoc.get? record key := by
  induction rules generalizing record with
  | nil => rw [Except.ok.inj applied]
  | cons rule rest ih =>
      obtain ⟨between, first, later⟩ := applyAll_cons applied
      rw [ih later fun other member => untouched other (List.mem_cons_of_mem _ member)]
      exact apply_other first (untouched rule List.mem_cons_self)

/-- Each field is settled by its own rule, whatever the other rules do. -/
theorem applyAll_settles (distinct : (rules.map FieldRule.key).Nodup)
    (applied : applyAll rules record = .ok after) (member : rule ∈ rules) :
    rule.Settles (Assoc.get? record rule.key) (Assoc.get? after rule.key) := by
  induction rules generalizing record with
  | nil => cases member
  | cons first rest ih =>
      obtain ⟨between, here, later⟩ := applyAll_cons applied
      obtain ⟨new, distinctRest⟩ := List.nodup_cons.mp distinct
      obtain rfl | inRest := List.mem_cons.mp member
      · have kept : Assoc.get? after rule.key = Assoc.get? between rule.key :=
          applyAll_other later fun other among same =>
            new (same ▸ List.mem_map_of_mem among)
        rw [kept]
        exact apply_self here
      · have kept : Assoc.get? between rule.key = Assoc.get? record rule.key :=
          apply_other here fun same => new (same ▸ List.mem_map_of_mem inRest)
        rw [← kept]
        exact ih distinctRest later inRest

end Laws

end FieldRule

end S3Manager.Library
