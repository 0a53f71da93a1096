import DepSpec.Revision
import DepSpec.Proofs.Irredundance

/-! Evaluation of two specifications joined to one. The stack reads the items of one after those of
the other, so what it leaves is put together from what it leaves of each. Evaluation does the same
unless it leaves one of them as it is. -/

namespace DepSpec

variable {α : Type}

namespace Spec

variable {a b : Spec α}

theorem joined_pair (a b : Spec α) : joined [a, b] = ofItems (a.items ++ b.items) := by
  simp [joined]

theorem WellFormed.joined_pair (ha : a.WellFormed) (hb : b.WellFormed) :
    (joined [a, b]).WellFormed := by
  rw [Spec.joined_pair]
  exact wellFormed_ofItems (ha.1.append hb.1)

theorem WellFormed.conditional_joined (ha : a.WellFormed) (hb : b.WellFormed) :
    (joined [a, b]).conditional = (a.conditional || b.conditional) := by
  rw [Spec.joined_pair, conditional_ofItems, testsOfItems_append, ha.2, hb.2]
  cases testsOfItems a.items <;> simp

theorem items_reduced_joined (selection : FlagSelection) (a b : Spec α) :
    ((joined [a, b]).reduced selection).items =
      (a.reduced selection).items ++ (b.reduced selection).items := by
  rw [joined_pair, reduced_eq, reduced_eq, reduced_eq]
  exact collapsedMembers_append selection.passes false a.items b.items

theorem terms_reduced_joined (selection : FlagSelection) (a b : Spec α) :
    ((joined [a, b]).reduced selection).terms =
      (a.reduced selection).terms ++ (b.reduced selection).terms := by
  rw [terms_eq_termsOfItems, items_reduced_joined, termsOfItems_append, ← terms_eq_termsOfItems,
    ← terms_eq_termsOfItems]

theorem presentTruth_reduced_joined (selection later : FlagSelection) (satisfied : α → Bool)
    (a b : Spec α) :
    ((joined [a, b]).reduced selection).presentTruth later satisfied =
      joinTruth false ((a.reduced selection).presentTruth later satisfied)
        ((b.reduced selection).presentTruth later satisfied) := by
  unfold presentTruth truth
  rw [items_reduced_joined, truthOfItems_append]

theorem items_evaluate_joined (ha : a.WellFormed) (hb : b.WellFormed)
    (hc : a.conditional = b.conditional) (selection : FlagSelection) :
    ((joined [a, b]).evaluate selection).items =
      (a.evaluate selection).items ++ (b.evaluate selection).items := by
  have hj := ha.conditional_joined hb
  by_cases hn : b.conditional = true
  · have hm : a.conditional = true := hc.trans hn
    rw [hm, Bool.true_or] at hj
    rw [evaluate_eq_reduced hj, evaluate_eq_reduced hm, evaluate_eq_reduced hn,
      items_reduced_joined]
  · have hm : ¬ a.conditional = true := by rwa [hc]
    have hj' : ¬ (joined [a, b]).conditional = true := by simp [hj, hm, hn]
    rw [evaluate, evaluate, evaluate, if_neg hj', if_neg hm, if_neg hn, joined_pair, ofItems]

/-- What has no conditionals is reduced with the rest, though alone it would be left as it is. -/
theorem items_evaluate_joined_iff (ha : a.WellFormed) (hb : b.WellFormed)
    (hc : a.conditional ≠ b.conditional) (selection : FlagSelection) :
    ((joined [a, b]).evaluate selection).items =
        (a.evaluate selection).items ++ (b.evaluate selection).items ↔
      ∀ spec ∈ [a, b], spec.conditional = false → NormalItems false spec.items := by
  have hj : (joined [a, b]).conditional = true := by
    rw [ha.conditional_joined hb]
    revert hc
    cases a.conditional <;> cases b.conditional <;> simp
  rw [evaluate_eq_reduced hj, items_reduced_joined]
  by_cases hm : a.conditional = true
  · have hn : b.conditional = false := by simpa [hm] using hc.symm
    have he : b.evaluate selection = b := by simp [evaluate, hn]
    rw [evaluate_eq_reduced hm, he, List.append_cancel_left_eq, items_reduced_eq_iff]
    simp [hm, hn]
  · have hf : a.conditional = false := by simpa using hm
    have hn : b.conditional = true := by simpa [hf] using hc.symm
    have he : a.evaluate selection = a := by simp [evaluate, hf]
    rw [evaluate_eq_reduced hn, he, List.append_cancel_right_eq, items_reduced_eq_iff]
    simp [hf, hn]

/-- If both specifications have conditionals or neither has, evaluating them joined leaves the items
that it leaves of one and then those of the other. If one has none, that holds only if its items are
in normal form. The terms are in any case those of both, and what is asked for is what both ask
for. -/
theorem evaluate_joined (selection : FlagSelection) (a b : Spec α) (ha : a.WellFormed)
    (hb : b.WellFormed) :
    (a.conditional = b.conditional →
        ((joined [a, b]).evaluate selection).items =
          (a.evaluate selection).items ++ (b.evaluate selection).items) ∧
      (a.conditional ≠ b.conditional →
        (((joined [a, b]).evaluate selection).items =
            (a.evaluate selection).items ++ (b.evaluate selection).items ↔
          ∀ spec ∈ [a, b], spec.conditional = false → NormalItems false spec.items)) ∧
      ((joined [a, b]).evaluate selection).terms =
        (a.evaluate selection).terms ++ (b.evaluate selection).terms ∧
      ∀ (later : FlagSelection) (satisfied : α → Bool),
        ((joined [a, b]).evaluate selection).presentTruth later satisfied =
          joinTruth false ((a.evaluate selection).presentTruth later satisfied)
            ((b.evaluate selection).presentTruth later satisfied) := by
  have hj := ha.joined_pair hb
  refine ⟨fun hc => items_evaluate_joined ha hb hc selection,
    fun hc => items_evaluate_joined_iff ha hb hc selection, ?_, fun later satisfied => ?_⟩
  · rw [← hj.terms_reduced, ← ha.terms_reduced, ← hb.terms_reduced, terms_reduced_joined]
  · rw [← hj.presentTruth_reduced, ← ha.presentTruth_reduced, ← hb.presentTruth_reduced,
      presentTruth_reduced_joined]

/-- The conjunction with an any-of group of one member dissolves beside a conditional only. -/
theorem evaluate_joined_redundantSpec :
    let selection : FlagSelection := ⟨["x"], none⟩
    let spec : Spec String := joined [guardedSpec, redundantSpec]
    guardedSpec.WellFormed ∧ redundantSpec.WellFormed ∧
      guardedSpec.conditional = true ∧ redundantSpec.conditional = false ∧
      (spec.evaluate selection).items ≠
        (guardedSpec.evaluate selection).items ++ (redundantSpec.evaluate selection).items ∧
      (spec.evaluate selection).terms = ["a", "b", "d"] ++ ["a", "b"] := by
  intro selection spec
  have hw : redundantSpec.WellFormed :=
    wellFormed_ofItems (by simp [WellFormedItems, Item.WellFormed])
  have hg : guardedSpec.conditional = true := conditional_ofItems _
  have hr : redundantSpec.conditional = false := conditional_ofItems _
  obtain ⟨-, hi, ht, -⟩ :=
    evaluate_joined selection guardedSpec redundantSpec guardedSpec_wellFormed hw
  refine ⟨guardedSpec_wellFormed, hw, hg, hr, fun h => ?_, ?_⟩
  · have hn := (hi (by simp [hg, hr])).mp h redundantSpec (by simp) hr
    simp [redundantSpec, ofItems, NormalItems, Item.Normal] at hn
  · rw [ht, guardedSpec_wellFormed.terms_evaluate, hw.terms_evaluate]
    rfl

end Spec

end DepSpec
