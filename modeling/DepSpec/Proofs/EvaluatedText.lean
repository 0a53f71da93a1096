import DepSpec.Proofs.EvaluatedTerms
import DepSpec.Proofs.RoundTrip

/-! What evaluation leaves of a specification with conditionals is in normal form, so it is flat and
without flags. Its text is read back as it is, if its terms are legible. -/

namespace DepSpec

variable {α : Type}

mutual

theorem Item.Normal.flat {inAnyOf : Bool} (item : Item α) (h : item.Normal inAnyOf) :
    item.Flat inAnyOf := by
  match item with
  | .term value => trivial
  | .group .allOf members =>
    rw [Item.Normal] at h
    exact ⟨h.1, NormalItems.flat members h.2.2⟩
  | .group .anyOf members =>
    rw [Item.Normal] at h
    exact NormalItems.flat members h.2
  | .group (.when test) members => exact absurd h (by simp [Item.Normal])

theorem NormalItems.flat {inAnyOf : Bool} (items : List (Item α)) (h : NormalItems inAnyOf items) :
    FlatItems inAnyOf items := by
  match items with
  | [] => trivial
  | item :: items =>
    rw [NormalItems] at h
    exact ⟨Item.Normal.flat item h.1, NormalItems.flat items h.2⟩

end

mutual

theorem Item.Normal.tests_eq_nil {inAnyOf : Bool} (item : Item α) (h : item.Normal inAnyOf) :
    item.tests = [] := by
  match item with
  | .term value => rfl
  | .group .allOf members =>
    rw [Item.Normal] at h
    simp [Item.tests, Head.test?, NormalItems.testsOfItems_eq_nil members h.2.2]
  | .group .anyOf members =>
    rw [Item.Normal] at h
    simp [Item.tests, Head.test?, NormalItems.testsOfItems_eq_nil members h.2]
  | .group (.when test) members => exact absurd h (by simp [Item.Normal])

theorem NormalItems.testsOfItems_eq_nil {inAnyOf : Bool} (items : List (Item α))
    (h : NormalItems inAnyOf items) : testsOfItems items = [] := by
  match items with
  | [] => rfl
  | item :: items =>
    rw [NormalItems] at h
    rw [testsOfItems, Item.Normal.tests_eq_nil item h.1, NormalItems.testsOfItems_eq_nil items h.2]
    rfl

end

namespace Spec

variable {spec : Spec α}

theorem normalItems_evaluate (hc : spec.conditional = true) (selection : FlagSelection) :
    NormalItems false (spec.evaluate selection).items := by
  rw [evaluate, if_pos hc]
  exact normal_collapse selection.passes spec.items

theorem conditional_evaluate (selection : FlagSelection) (spec : Spec α) :
    (spec.evaluate selection).conditional = false := by
  unfold evaluate
  split <;> simp_all

theorem wellFormed_evaluate (hc : spec.conditional = true) (selection : FlagSelection) :
    (spec.evaluate selection).WellFormed := by
  have hn := normalItems_evaluate hc selection
  refine ⟨hn.wellFormed, ?_⟩
  rw [conditional_evaluate, hn.testsOfItems_eq_nil]
  rfl

theorem legible_evaluate {text : α → String} (hc : spec.conditional = true)
    (ht : ∀ value ∈ spec.terms, IsWord (text value) ∧ IsTermWord (text value))
    (selection : FlagSelection) : (spec.evaluate selection).Legible text := by
  constructor
  · intro value hv
    rw [← terms_eq_termsOfItems] at hv
    exact ht value (terms_evaluate_subset selection spec hv)
  · simp [(normalItems_evaluate hc selection).testsOfItems_eq_nil]

/-- What is left of a specification with conditionals is in normal form. If its terms were legible,
it is read back from its text, item by item. -/
theorem normalItems_evaluate_and_parseText_text (selection : FlagSelection) :
    (∀ {α : Type} (spec : Spec α), spec.conditional = true →
        (spec.evaluate selection).conditional = false ∧
          NormalItems false (spec.evaluate selection).items) ∧
      ∀ spec : Spec String, spec.conditional = true →
        (∀ value ∈ spec.terms, IsWord value ∧ IsTermWord value) →
          parseText (spec.evaluate selection).text = .ok (spec.evaluate selection) := by
  refine ⟨fun spec hc => ⟨conditional_evaluate selection spec, normalItems_evaluate hc selection⟩,
    fun spec hc ht => ?_⟩
  have hl : (spec.evaluate selection).Legible id := legible_evaluate hc ht selection
  have hf : (spec.evaluate selection).flattened = spec.evaluate selection :=
    flattened_eq_self_iff.mpr (normalItems_evaluate hc selection).flat
  calc parseText (spec.evaluate selection).text
      = .ok ((spec.evaluate selection).map id).flattened :=
        hl.parseText_render (wellFormed_evaluate hc selection)
    _ = .ok (spec.evaluate selection) := by rw [map_id, hf]

/-- The any-of group keeps one member, a conjunction, which is then at the top. -/
theorem normalItems_evaluate_and_parseText_guardedSpec :
    guardedSpec.conditional = true ∧
      (∀ value ∈ guardedSpec.terms, IsWord value ∧ IsTermWord value) ∧
      NormalItems false (guardedSpec.evaluate ⟨["x"], none⟩).items ∧
      parseText (guardedSpec.evaluate ⟨["x"], none⟩).text =
        .ok ⟨[.term "a", .term "b", .term "d"], false⟩ := by
  have hc : guardedSpec.conditional = true := conditional_ofItems _
  have ht : ∀ value ∈ guardedSpec.terms, IsWord value ∧ IsTermWord value := by
    have hs : guardedSpec.terms = ["a", "b", "c", "d"] := terms_eq_termsOfItems _
    simp [hs, IsWord, isBlank, IsTermWord]
  have he : guardedSpec.evaluate ⟨["x"], none⟩ = ⟨[.term "a", .term "b", .term "d"], false⟩ := by
    rw [Spec.evaluate, if_pos hc, collapse_eq_collapsedMembers]
    rfl
  obtain ⟨hn, hp⟩ := normalItems_evaluate_and_parseText_text ⟨["x"], none⟩
  exact ⟨hc, ht, (hn guardedSpec hc).2, (hp guardedSpec hc ht).trans (congrArg Except.ok he)⟩

end Spec

end DepSpec
