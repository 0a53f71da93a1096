import DepSpec.Flattened
import DepSpec.Proofs.EvaluatedText
import DepSpec.Proofs.FlatViews

/-! Items collapse to the same as their flat form. So evaluation leaves the same of a specification
and of what is read back from its text; without conditionals it leaves the same text. -/

namespace DepSpec

variable {α : Type}

/-- Members that stand where no conjunction may are what a conjunction of them leaves there. -/
theorem NormalItems.residue_eq {items : List (Item α)} (h : NormalItems false items) :
    residue false false items = items := by
  match items with
  | [] => rfl
  | [.term value] => rfl
  | [.group .allOf members] => simp [NormalItems, Item.Normal] at h
  | [.group .anyOf members] => rfl
  | [.group (.when test) members] => rfl
  | _ :: _ :: _ => simp [residue]

mutual

theorem Item.collapsed_flattened (passes : FlagTest → Bool) (inAnyOf : Bool) (item : Item α) :
    collapsedMembers passes inAnyOf (item.flattened inAnyOf) = item.collapsed passes inAnyOf := by
  match item with
  | .term value => rfl
  | .group .allOf members =>
    have hm := collapsedMembers_flattenedItems passes false members
    cases inAnyOf with
    | false =>
      have hn := (normal_collapsedMembers passes false members).residue_eq
      simp [Item.flattened, Item.collapsed, Head.passes, Head.isAnyOf, hm, hn]
    | true =>
      simp [Item.flattened, collapsedMembers, Item.collapsed, Head.passes, Head.isAnyOf, hm]
  | .group .anyOf members =>
    have hm := collapsedMembers_flattenedItems passes true members
    simp [Item.flattened, collapsedMembers, Item.collapsed, Head.passes, Head.isAnyOf, hm]
  | .group (.when test) members =>
    have hm := collapsedMembers_flattenedItems passes false members
    simp [Item.flattened, collapsedMembers, Item.collapsed, Head.isAnyOf, hm]

theorem collapsedMembers_flattenedItems (passes : FlagTest → Bool) (inAnyOf : Bool)
    (items : List (Item α)) :
    collapsedMembers passes inAnyOf (flattenedItems inAnyOf items) =
      collapsedMembers passes inAnyOf items := by
  match items with
  | [] => rfl
  | item :: items =>
    rw [flattenedItems, collapsedMembers_append, Item.collapsed_flattened passes inAnyOf item,
      collapsedMembers_flattenedItems passes inAnyOf items, collapsedMembers]

end

namespace Spec

theorem evaluate_flattened {spec : Spec α} (hc : spec.conditional = true)
    (selection : FlagSelection) : spec.flattened.evaluate selection = spec.evaluate selection := by
  have hf : spec.flattened.conditional = true := hc
  rw [evaluate, evaluate, if_pos hf, if_pos hc, flattened, collapse_eq_collapsedMembers,
    collapse_eq_collapsedMembers, collapsedMembers_flattenedItems]

theorem render_evaluate_flattened (text : α → String) (spec : Spec α)
    (selection : FlagSelection) :
    (spec.flattened.evaluate selection).render text = (spec.evaluate selection).render text := by
  by_cases hc : spec.conditional = true
  · rw [evaluate_flattened hc]
  · have hf : ¬ spec.flattened.conditional = true := hc
    rw [evaluate, evaluate, if_neg hf, if_neg hc, render_flattened]

/-- Of a legible specification with conditionals and of what is read back from its text, evaluation
leaves the same items. Without conditionals it leaves both as they are, and their texts agree. -/
theorem evaluate_parseText_text (spec : Spec String) (hw : spec.WellFormed)
    (hl : spec.Legible id) :
    ∃ again, parseText spec.text = .ok again ∧ ∀ selection : FlagSelection,
      (spec.conditional = true → again.evaluate selection = spec.evaluate selection) ∧
        (again.evaluate selection).text = (spec.evaluate selection).text :=
  ⟨spec.flattened, hl.parseText_text hw, fun selection =>
    ⟨fun hc => evaluate_flattened hc selection, render_evaluate_flattened id spec selection⟩⟩

/-- Evaluation drops the conjunction that the text keeps, and the one that it does not. -/
theorem evaluate_parseText_text_nestedSpec :
    nestedSpec.WellFormed ∧ nestedSpec.Legible id ∧ nestedSpec.conditional = true ∧
      ∃ again, parseText nestedSpec.text = .ok again ∧
        again.evaluate ⟨[], none⟩ =
          ⟨[.group .anyOf [.term "a", .term "b"], .term "c"], false⟩ := by
  have hc : nestedSpec.conditional = true := conditional_ofItems _
  have he : nestedSpec.evaluate ⟨[], none⟩ =
      ⟨[.group .anyOf [.term "a", .term "b"], .term "c"], false⟩ := by
    rw [evaluate, if_pos hc, collapse_eq_collapsedMembers]
    rfl
  obtain ⟨again, hp, ha⟩ :=
    evaluate_parseText_text nestedSpec nestedSpec_wellFormed nestedSpec_legible
  exact ⟨nestedSpec_wellFormed, nestedSpec_legible, hc, again, hp,
    ((ha ⟨[], none⟩).1 hc).trans he⟩

end Spec

end DepSpec
