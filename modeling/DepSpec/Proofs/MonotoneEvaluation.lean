import DepSpec.Proofs.FlagDependence
import DepSpec.Proofs.GuardedTerms

/-! Evaluation is monotone. The more tests of a specification pass, the more of its terms are left,
in the same order: when fewer flags are in scope, and when flags are enabled that no negated test
asks about. -/

namespace DepSpec

variable {α : Type}

theorem Head.passes_of_forall {p q : FlagTest → Bool} {head : Head}
    (h : ∀ test ∈ head.test?, p test = true → q test = true) (hp : head.passes p = true) :
    head.passes q = true := by
  cases head with
  | allOf => rfl
  | anyOf => rfl
  | when test => exact h test rfl hp

mutual

theorem Item.survivors_sublist {p q : FlagTest → Bool} (item : Item α)
    (h : ∀ test ∈ item.tests, p test = true → q test = true) :
    (item.survivors p).Sublist (item.survivors q) := by
  match item with
  | .term value => exact List.Sublist.refl [value]
  | .group head members =>
    have hm := survivorsOfItems_sublist members fun test ht => h test (by simp [Item.tests, ht])
    rw [Item.survivors, Item.survivors]
    by_cases hp : head.passes p = true
    · have hh : ∀ test ∈ head.test?, p test = true → q test = true := fun test ht =>
        h test (by simp [Item.tests, Option.mem_def.mp ht])
      have hq : head.passes q = true := Head.passes_of_forall hh hp
      rw [if_pos hp, if_pos hq]
      exact hm
    · rw [if_neg hp]
      exact List.nil_sublist _

theorem survivorsOfItems_sublist {p q : FlagTest → Bool} (items : List (Item α))
    (h : ∀ test ∈ testsOfItems items, p test = true → q test = true) :
    (survivorsOfItems p items).Sublist (survivorsOfItems q items) := by
  match items with
  | [] => exact List.Sublist.refl []
  | item :: items =>
    have hi := Item.survivors_sublist item fun test ht => h test (by simp [testsOfItems, ht])
    have hr := survivorsOfItems_sublist items fun test ht => h test (by simp [testsOfItems, ht])
    exact hi.append hr

end

namespace FlagSelection

theorem passes_of_scope_subset {enabled : List String} {narrow wide : Option (List String)}
    {test : FlagTest}
    (hs : InScope ⟨enabled, narrow⟩ test.flag → InScope ⟨enabled, wide⟩ test.flag)
    (hp : passes ⟨enabled, wide⟩ test = true) : passes ⟨enabled, narrow⟩ test = true := by
  rw [passes_iff_of_inScope] at *
  exact fun h => hp (hs h)

theorem passes_of_polarity {fewer more : List String} {restriction : Option (List String)}
    {test : FlagTest}
    (hn : test.negated = false → test.flag ∈ fewer → test.flag ∈ more)
    (hm : test.negated = true → test.flag ∈ more → test.flag ∈ fewer)
    (hp : passes ⟨fewer, restriction⟩ test = true) :
    passes ⟨more, restriction⟩ test = true := by
  rw [passes_iff_of_inScope] at *
  intro hs
  have he := hp hs
  cases hb : test.negated with
  | false => exact ⟨fun _ => rfl, fun _ => hn hb (he.mpr hb)⟩
  | true =>
    have hf : test.flag ∉ fewer := fun hf => by simpa [hb] using he.mp hf
    exact ⟨fun h => absurd (hm hb h) hf, fun h => by cases h⟩

theorem passes_of_empty_restriction (enabled : List String) (test : FlagTest) :
    passes ⟨enabled, some []⟩ test = true := by
  simp [passes, counts]

end FlagSelection

namespace Spec

/-- A specification marked as without conditionals is left as it is on both sides. -/
theorem terms_evaluate_sublist {s t : FlagSelection} {spec : Spec α}
    (h : ∀ test ∈ testsOfItems spec.items, s.passes test = true → t.passes test = true) :
    (spec.evaluate s).terms.Sublist (spec.evaluate t).terms := by
  rw [terms_eq_termsOfItems, terms_eq_termsOfItems]
  by_cases hc : spec.conditional = true
  · rw [evaluate, evaluate, if_pos hc, if_pos hc, terms_collapse, terms_collapse]
    exact survivorsOfItems_sublist spec.items h
  · have he : ∀ selection, spec.evaluate selection = spec := fun _ => if_neg hc
    simp only [he, List.Sublist.refl]

/-- A wider restriction leaves fewer terms, in the same order, and the empty one leaves all. More
terms are left, also in the same order, if flags are enabled that plain conditionals ask about and
others disabled that negated ones ask about. -/
theorem terms_evaluate_monotone (spec : Spec α) :
    (∀ (enabled : List String) (narrow wide : Option (List String)),
        (∀ flag, FlagSelection.InScope ⟨enabled, narrow⟩ flag →
          FlagSelection.InScope ⟨enabled, wide⟩ flag) →
        (spec.evaluate ⟨enabled, wide⟩).terms.Sublist (spec.evaluate ⟨enabled, narrow⟩).terms) ∧
      (∀ enabled : List String, (spec.evaluate ⟨enabled, some []⟩).terms = spec.terms) ∧
      ∀ (restriction : Option (List String)) (fewer more : List String),
        (∀ flag, ⟨flag, false⟩ ∈ testsOfItems spec.items → flag ∈ fewer → flag ∈ more) →
        (∀ flag, ⟨flag, true⟩ ∈ testsOfItems spec.items → flag ∈ more → flag ∈ fewer) →
        (spec.evaluate ⟨fewer, restriction⟩).terms.Sublist
          (spec.evaluate ⟨more, restriction⟩).terms := by
  refine ⟨fun enabled narrow wide hs => ?_, fun enabled => ?_,
    fun restriction fewer more hn hm => ?_⟩
  · exact terms_evaluate_sublist fun test _ => FlagSelection.passes_of_scope_subset (hs test.flag)
  · rw [terms_eq_termsOfItems, terms_eq_termsOfItems]
    by_cases hc : spec.conditional = true
    · have ha := survivorsOfItems_eq_terms spec.items fun test _ =>
        FlagSelection.passes_of_empty_restriction enabled test
      rw [evaluate, if_pos hc, terms_collapse, ha]
    · rw [evaluate, if_neg hc]
  · refine terms_evaluate_sublist fun test ht => FlagSelection.passes_of_polarity ?_ ?_
    · intro hb
      exact hn test.flag (by rwa [← hb])
    · intro hb
      exact hm test.flag (by rwa [← hb])

/-- The term that a negated conditional guards as well is left twice if its flag is disabled. -/
theorem terms_evaluate_monotone_repeatedSpec :
    (∀ flag, FlagSelection.InScope ⟨["y"], some ["y"]⟩ flag →
        FlagSelection.InScope ⟨["y"], some ["x", "y"]⟩ flag) ∧
      (repeatedSpec.evaluate ⟨["y"], some ["x", "y"]⟩).terms.Sublist
        (repeatedSpec.evaluate ⟨["y"], some ["y"]⟩).terms ∧
      (repeatedSpec.evaluate ⟨["y"], some ["x", "y"]⟩).terms = ["b"] ∧
      (repeatedSpec.evaluate ⟨["y"], some []⟩).terms = ["a", "b", "a", "b"] ∧
      (∀ flag, ⟨flag, false⟩ ∈ testsOfItems repeatedSpec.items →
        flag ∈ ["x", "y"] → flag ∈ ["x"]) ∧
      (∀ flag, ⟨flag, true⟩ ∈ testsOfItems repeatedSpec.items →
        flag ∈ ["x"] → flag ∈ ["x", "y"]) ∧
      (repeatedSpec.evaluate ⟨["x", "y"], none⟩).terms.Sublist
        (repeatedSpec.evaluate ⟨["x"], none⟩).terms ∧
      (repeatedSpec.evaluate ⟨["x", "y"], none⟩).terms = ["a", "b", "b"] := by
  have ht : testsOfItems repeatedSpec.items = [⟨"x", false⟩, ⟨"y", true⟩, ⟨"x", false⟩] := rfl
  have hc : repeatedSpec.conditional = true := conditional_ofItems _
  have hs : ∀ flag, FlagSelection.InScope ⟨["y"], some ["y"]⟩ flag →
      FlagSelection.InScope ⟨["y"], some ["x", "y"]⟩ flag := by
    simp [FlagSelection.InScope]
  have hn : ∀ flag, ⟨flag, false⟩ ∈ testsOfItems repeatedSpec.items →
      flag ∈ ["x", "y"] → flag ∈ ["x"] := by
    rw [ht]
    simp
  have hm : ∀ flag, ⟨flag, true⟩ ∈ testsOfItems repeatedSpec.items →
      flag ∈ ["x"] → flag ∈ ["x", "y"] := by
    rw [ht]
    simp
  have he : ∀ selection : FlagSelection, (repeatedSpec.evaluate selection).terms =
      survivorsOfItems selection.passes repeatedSpec.items := fun selection => by
    rw [terms_eq_termsOfItems, evaluate, if_pos hc, terms_collapse]
  obtain ⟨hr, ha, hp⟩ := terms_evaluate_monotone repeatedSpec
  exact ⟨hs, hr ["y"] _ _ hs, (he _).trans (by decide), (ha ["y"]).trans (terms_eq_termsOfItems _),
    hn, hm, hp none _ _ hn hm, (he _).trans (by decide)⟩

end Spec

end DepSpec
