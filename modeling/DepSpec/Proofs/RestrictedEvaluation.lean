import DepSpec.Proofs.EvaluatedText
import DepSpec.Proofs.FlagDependence

/-! Evaluation restricted to some flags is evaluation, without a restriction, of what other flags no
longer guard. If no flag guards anything then, all terms are left whatever is enabled. -/

namespace DepSpec

variable {α : Type}

/-- A conditional on a flag that is not among the given ones becomes a conjunction. -/
def Head.unguarded (flags : List String) : Head → Head
  | .when test => if test.flag ∈ flags then .when test else .allOf
  | head => head

mutual

def Item.unguarded (flags : List String) : Item α → Item α
  | .term value => .term value
  | .group head members => .group (head.unguarded flags) (unguardedItems flags members)

def unguardedItems (flags : List String) : List (Item α) → List (Item α)
  | [] => []
  | item :: items => item.unguarded flags :: unguardedItems flags items

end

def Spec.unguarded (flags : List String) (spec : Spec α) : Spec α :=
  .ofItems (unguardedItems flags spec.items)

theorem Head.isAnyOf_unguarded (flags : List String) (head : Head) :
    (head.unguarded flags).isAnyOf = head.isAnyOf := by
  cases head with
  | allOf => rfl
  | anyOf => rfl
  | when test =>
    rw [unguarded]
    split <;> rfl

theorem Head.test?_unguarded (flags : List String) (head : Head) :
    (head.unguarded flags).test? = head.test?.filter fun test => decide (test.flag ∈ flags) := by
  cases head with
  | allOf => rfl
  | anyOf => rfl
  | when test => by_cases h : test.flag ∈ flags <;> simp [unguarded, test?, Option.filter, h]

theorem FlagSelection.passes_restricted (enabled flags : List String) (test : FlagTest) :
    passes ⟨enabled, some flags⟩ test =
      if test.flag ∈ flags then passes ⟨enabled, none⟩ test else true := by
  by_cases h : test.flag ∈ flags <;> simp [passes, counts, h]

theorem Head.passes_unguarded (enabled flags : List String) (head : Head) :
    (head.unguarded flags).passes (FlagSelection.passes ⟨enabled, none⟩) =
      head.passes (FlagSelection.passes ⟨enabled, some flags⟩) := by
  cases head with
  | allOf => rfl
  | anyOf => rfl
  | when test =>
    rw [unguarded, passes, FlagSelection.passes_restricted]
    split <;> rfl

mutual

theorem Item.tests_unguarded (flags : List String) (item : Item α) :
    (item.unguarded flags).tests = item.tests.filter fun test => decide (test.flag ∈ flags) := by
  match item with
  | .term value => rfl
  | .group head members =>
    rw [Item.unguarded, Item.tests, Item.tests, testsOfItems_unguardedItems flags members,
      Head.test?_unguarded, List.filter_append]
    cases head.test? with
    | none => rfl
    | some test => by_cases h : test.flag ∈ flags <;> simp [Option.filter, h]

theorem testsOfItems_unguardedItems (flags : List String) (items : List (Item α)) :
    testsOfItems (unguardedItems flags items) =
      (testsOfItems items).filter fun test => decide (test.flag ∈ flags) := by
  match items with
  | [] => rfl
  | item :: items =>
    rw [unguardedItems, testsOfItems, testsOfItems, Item.tests_unguarded flags item,
      testsOfItems_unguardedItems flags items, List.filter_append]

end

mutual

theorem Item.collapsed_unguarded (enabled flags : List String) (outerAnyOf : Bool)
    (item : Item α) :
    (item.unguarded flags).collapsed (FlagSelection.passes ⟨enabled, none⟩) outerAnyOf =
      item.collapsed (FlagSelection.passes ⟨enabled, some flags⟩) outerAnyOf := by
  match item with
  | .term value => rfl
  | .group head members =>
    rw [Item.unguarded, Item.collapsed, Item.collapsed, Head.passes_unguarded,
      Head.isAnyOf_unguarded, collapsedMembers_unguardedItems enabled flags _ members]

theorem collapsedMembers_unguardedItems (enabled flags : List String) (anyOf : Bool)
    (items : List (Item α)) :
    collapsedMembers (FlagSelection.passes ⟨enabled, none⟩) anyOf (unguardedItems flags items) =
      collapsedMembers (FlagSelection.passes ⟨enabled, some flags⟩) anyOf items := by
  match items with
  | [] => rfl
  | item :: items =>
    rw [unguardedItems, collapsedMembers, collapsedMembers,
      Item.collapsed_unguarded enabled flags anyOf item,
      collapsedMembers_unguardedItems enabled flags anyOf items]

end

namespace Spec

variable {spec : Spec α}

theorem conditional_unguarded_eq_false_iff {flags : List String} :
    (spec.unguarded flags).conditional = false ↔
      ∀ test ∈ testsOfItems spec.items, test.flag ∉ flags := by
  rw [unguarded, conditional_ofItems, testsOfItems_unguardedItems]
  simp

theorem evaluate_restricted (hc : spec.conditional = true) (enabled flags : List String) :
    spec.evaluate ⟨enabled, some flags⟩ =
      ⟨collapsedMembers (FlagSelection.passes ⟨enabled, none⟩) false (spec.unguarded flags).items,
        false⟩ := by
  rw [evaluate, if_pos hc, collapse_eq_collapsedMembers, unguarded, ofItems,
    collapsedMembers_unguardedItems]

/-- A specification with conditionals, evaluated under a restriction, leaves what its unguarded form
leaves without one, as long as that still has a conditional. Otherwise every term is left, free of
conditionals, and the enabled flags do not matter. -/
theorem evaluate_restricted_eq_evaluate_unguarded (spec : Spec α) (hc : spec.conditional = true)
    (enabled flags : List String) :
    ((spec.unguarded flags).conditional = true →
        spec.evaluate ⟨enabled, some flags⟩ =
          (spec.unguarded flags).evaluate ⟨enabled, none⟩) ∧
      ((spec.unguarded flags).conditional = false →
        (spec.evaluate ⟨enabled, some flags⟩).conditional = false ∧
          testsOfItems (spec.evaluate ⟨enabled, some flags⟩).items = [] ∧
          (∀ others : List String,
            spec.evaluate ⟨others, some flags⟩ = spec.evaluate ⟨enabled, some flags⟩) ∧
          (spec.evaluate ⟨enabled, some flags⟩).terms = spec.terms) := by
  constructor
  · intro hu
    rw [evaluate_restricted hc, evaluate, if_pos hu, collapse_eq_collapsedMembers]
  · intro hu
    -- every conditional is on a flag out of scope, so it passes whatever is enabled
    have hp : ∀ others, ∀ test ∈ testsOfItems spec.items,
        FlagSelection.passes ⟨others, some flags⟩ test = true := by
      intro others test ht
      have hn := conditional_unguarded_eq_false_iff.mp hu test ht
      rw [FlagSelection.passes_restricted, if_neg hn]
    refine ⟨conditional_evaluate _ spec, (normalItems_evaluate hc _).testsOfItems_eq_nil,
      fun others => ?_, ?_⟩
    · have hs := collapsedMembers_congr false spec.items fun test ht =>
        (hp others test ht).trans (hp enabled test ht).symm
      rw [evaluate, evaluate, if_pos hc, if_pos hc, collapse_eq_collapsedMembers,
        collapse_eq_collapsedMembers, hs]
    · rw [terms_eq_termsOfItems, terms_eq_termsOfItems, evaluate, if_pos hc, terms_collapse,
        survivorsOfItems_eq_terms spec.items (hp enabled)]

/-- One guard of the term guarded twice is out of scope, and the other shuts it out. -/
theorem evaluate_restricted_guardedSpec :
    guardedSpec.conditional = true ∧
      (guardedSpec.unguarded ["x"]).conditional = true ∧
      guardedSpec.evaluate ⟨["x", "y"], some ["x"]⟩ =
        (guardedSpec.unguarded ["x"]).evaluate ⟨["x", "y"], none⟩ ∧
      (guardedSpec.evaluate ⟨["x", "y"], some ["x"]⟩).items =
        [.term "a", .term "b", .term "d"] ∧
      (guardedSpec.unguarded ["z"]).conditional = false ∧
      (guardedSpec.evaluate ⟨["x", "y"], some ["z"]⟩).terms = ["a", "b", "c", "d"] := by
  have hc : guardedSpec.conditional = true := conditional_ofItems _
  have hx : (guardedSpec.unguarded ["x"]).conditional = true := conditional_ofItems _
  have hz : (guardedSpec.unguarded ["z"]).conditional = false := conditional_ofItems _
  obtain ⟨hs, -⟩ := evaluate_restricted_eq_evaluate_unguarded guardedSpec hc ["x", "y"] ["x"]
  obtain ⟨-, hf⟩ := evaluate_restricted_eq_evaluate_unguarded guardedSpec hc ["x", "y"] ["z"]
  refine ⟨hc, hx, hs hx, ?_, hz, (hf hz).2.2.2.trans ?_⟩
  · rw [evaluate_restricted hc]
    rfl
  · rw [terms_eq_termsOfItems]
    rfl

end Spec

end DepSpec
