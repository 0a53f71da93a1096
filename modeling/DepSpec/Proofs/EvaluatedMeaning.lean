import DepSpec.Meaning
import DepSpec.WellFormed

/-! Evaluation keeps what a specification asks for under the same flags. What is left asks for it
under any flags. -/

namespace DepSpec

variable {α : Type}

namespace FlagSelection

/-- The flag of the test does not count, or it is enabled exactly if the test is not negated. -/
def Admits (selection : FlagSelection) (test : FlagTest) : Prop :=
  (∃ flags, selection.restriction = some flags ∧ test.flag ∉ flags) ∨
    (test.flag ∈ selection.enabled ↔ test.negated = false)

theorem counts_eq_false_iff {selection : FlagSelection} {flag : String} :
    selection.counts flag = false ↔
      ∃ flags, selection.restriction = some flags ∧ flag ∉ flags := by
  unfold counts
  cases selection.restriction <;> simp

theorem passes_iff_admits {selection : FlagSelection} {test : FlagTest} :
    selection.passes test = true ↔ selection.Admits test := by
  have hh : test.holds selection.enabled = true ↔
      (test.flag ∈ selection.enabled ↔ test.negated = false) := by
    unfold FlagTest.holds
    cases test.negated <;> simp
  rw [passes, Bool.or_eq_true, Bool.not_eq_true', counts_eq_false_iff, hh, Admits]

instance (selection : FlagSelection) (test : FlagTest) : Decidable (selection.Admits test) :=
  decidable_of_iff _ passes_iff_admits

theorem passes_eq_decide (selection : FlagSelection) :
    selection.passes = fun test => decide (selection.Admits test) := by
  funext test
  rw [Bool.eq_iff_iff, passes_iff_admits, decide_eq_true_iff]

end FlagSelection

/-- What a specification asks for under the flags of a selection: nothing, if no term is present. -/
def Spec.presentTruth (selection : FlagSelection) (satisfied : α → Bool) (spec : Spec α) :
    Option Bool :=
  spec.truth (fun test => decide (selection.Admits test)) satisfied

/-- An any-of group asks for one, any other group for each of its present members. -/
theorem truthOfItems_eq_present (passes : FlagTest → Bool) (satisfied : α → Bool) (anyOf : Bool)
    (items : List (Item α)) :
    truthOfItems passes satisfied anyOf items =
      match items.filterMap (Item.truth passes satisfied) with
      | [] => none
      | present => some (if anyOf then present.any id else present.all id) := by
  induction items with
  | nil => rfl
  | cons item items ih =>
    rw [truthOfItems, ih, List.filterMap_cons]
    cases item.truth passes satisfied with
    | none => rfl
    | some b =>
      cases items.filterMap (Item.truth passes satisfied) with
      | nil => cases anyOf <;> simp [joinTruth]
      | cons c present => cases anyOf <;> simp [joinTruth]

mutual

theorem Item.truth_congr {p q : FlagTest → Bool} (satisfied : α → Bool) (item : Item α)
    (h : ∀ test ∈ item.tests, p test = q test) :
    item.truth p satisfied = item.truth q satisfied := by
  match item with
  | .term value => rfl
  | .group head members =>
    have hm := truthOfItems_congr satisfied head.isAnyOf members fun test ht =>
      h test (by simp [Item.tests, ht])
    have hp : head.passes p = head.passes q :=
      Head.passes_congr fun test ht => h test (by simp [Item.tests, Option.mem_def.mp ht])
    rw [Item.truth, Item.truth, hp, hm]

/-- What items ask for depends on the tests that occur in them only. -/
theorem truthOfItems_congr {p q : FlagTest → Bool} (satisfied : α → Bool) (anyOf : Bool)
    (items : List (Item α)) (h : ∀ test ∈ testsOfItems items, p test = q test) :
    truthOfItems p satisfied anyOf items = truthOfItems q satisfied anyOf items := by
  match items with
  | [] => rfl
  | item :: items =>
    rw [truthOfItems, truthOfItems,
      Item.truth_congr satisfied item fun test ht => h test (by simp [testsOfItems, ht]),
      truthOfItems_congr satisfied anyOf items fun test ht => h test (by simp [testsOfItems, ht])]

end

theorem Spec.WellFormed.testsOfItems_eq_nil {spec : Spec α} (h : spec.WellFormed)
    (hc : spec.conditional = false) : testsOfItems spec.items = [] := by
  have ht := h.2
  rw [hc] at ht
  simpa using ht.symm

/-- Evaluation keeps what is asked for, also if asking for nothing counts as true. What is left of a
well-formed specification asks for the same whatever flags are selected later. -/
theorem Spec.presentTruth_evaluate (selection : FlagSelection) (spec : Spec α)
    (satisfied : α → Bool) :
    (spec.evaluate selection).presentTruth selection satisfied =
        spec.presentTruth selection satisfied ∧
      ((spec.evaluate selection).presentTruth selection satisfied).getD true =
        (spec.presentTruth selection satisfied).getD true ∧
      (spec.WellFormed → ∀ later : FlagSelection,
        (spec.evaluate selection).presentTruth later satisfied =
          spec.presentTruth selection satisfied) := by
  have hsame : ∀ later : FlagSelection, later = selection ∨ spec.WellFormed →
      (spec.evaluate selection).presentTruth later satisfied =
        spec.presentTruth selection satisfied := by
    intro later hl
    unfold presentTruth truth evaluate
    by_cases hc : spec.conditional = true
    · rw [if_pos hc, truth_collapse, selection.passes_eq_decide]
    · rw [if_neg hc]
      rcases hl with rfl | hw
      · rfl
      · have ht := hw.testsOfItems_eq_nil (by simpa using hc)
        exact truthOfItems_congr satisfied false spec.items (by simp [ht])
  have hs := hsame selection (.inl rfl)
  exact ⟨hs, congrArg (Option.getD · true) hs, fun hw later => hsame later (.inr hw)⟩

/-- A guarded conjunction and a term guarded twice in an any-of group, before another term. -/
def guardedSpec : Spec String :=
  .ofItems [.group .anyOf [.group (.when ⟨"x", false⟩) [.term "a", .term "b"],
    .group (.when ⟨"y", true⟩) [.group (.when ⟨"x", true⟩) [.term "c"]]], .term "d"]

theorem guardedSpec_wellFormed : guardedSpec.WellFormed :=
  Spec.wellFormed_ofItems (by simp [WellFormedItems, Item.WellFormed])

theorem Spec.presentTruth_evaluate_guardedSpec :
    guardedSpec.WellFormed ∧
      (guardedSpec.evaluate ⟨["x"], some ["x"]⟩).presentTruth ⟨["y"], none⟩ (· != "b") =
        guardedSpec.presentTruth ⟨["x"], some ["x"]⟩ (· != "b") ∧
      guardedSpec.presentTruth ⟨["x"], some ["x"]⟩ (· != "b") = some false ∧
      guardedSpec.presentTruth ⟨["y"], none⟩ (· != "b") = some true := by
  obtain ⟨-, -, hl⟩ := presentTruth_evaluate ⟨["x"], some ["x"]⟩ guardedSpec (· != "b")
  exact ⟨guardedSpec_wellFormed, hl guardedSpec_wellFormed ⟨["y"], none⟩, by decide, by decide⟩

end DepSpec
