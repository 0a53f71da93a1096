import DepSpec.Context
import DepSpec.Proofs.UniqueNormalForm

/-! Laws of conditionals. Nested conditionals may change places, a conditional may be nested in
itself, and one that is not directly in an any-of group may be split. Evaluation leaves the same
before and after, wherever the law is applied. -/

namespace DepSpec

variable {α : Type}

/-- The items on both sides of a law, in a group that is an any-of group or not. -/
inductive ConditionalLaw : Bool → List (Item α) → List (Item α) → Prop
  | exchange {anyOf : Bool} (p q : FlagTest) (members : List (Item α)) :
      ConditionalLaw anyOf [.group (.when p) [.group (.when q) members]]
        [.group (.when q) [.group (.when p) members]]
  | contract {anyOf : Bool} (p : FlagTest) (members : List (Item α)) :
      ConditionalLaw anyOf [.group (.when p) [.group (.when p) members]]
        [.group (.when p) members]
  | split (p : FlagTest) (xs ys : List (Item α)) :
      ConditionalLaw false [.group (.when p) (xs ++ ys)]
        [.group (.when p) xs, .group (.when p) ys]

theorem collapsedMembers_singleton (passes : FlagTest → Bool) (anyOf : Bool) (item : Item α) :
    collapsedMembers passes anyOf [item] = item.collapsed passes anyOf := by
  rw [collapsedMembers, collapsedMembers, List.append_nil]

theorem collapsed_when (passes : FlagTest → Bool) (anyOf : Bool) (p : FlagTest)
    (members : List (Item α)) :
    (Item.group (.when p) members).collapsed passes anyOf =
      if passes p then residue anyOf false (collapsedMembers passes false members) else [] := by
  rw [Item.collapsed]
  rfl

/-- Around one item, a conditional leaves what the item would leave in its place. -/
theorem collapsed_when_singleton (passes : FlagTest → Bool) (anyOf : Bool) (p : FlagTest)
    (item : Item α) :
    (Item.group (.when p) [item]).collapsed passes anyOf =
      if passes p then item.collapsed passes anyOf else [] := by
  rw [collapsed_when, collapsedMembers_singleton, Item.residue_collapsed]

/-- Where no conjunction is left, a conditional leaves what its members leave. -/
theorem collapsed_when_spliced (passes : FlagTest → Bool) (p : FlagTest)
    (members : List (Item α)) :
    (Item.group (.when p) members).collapsed passes false =
      if passes p then collapsedMembers passes false members else [] := by
  have hn := normal_collapsedMembers passes false members
  rw [collapsed_when, hn.residue_eq]

namespace ConditionalLaw

variable {anyOf : Bool} {xs ys : List (Item α)}

theorem collapsedMembers_eq (h : ConditionalLaw anyOf xs ys) (passes : FlagTest → Bool) :
    collapsedMembers passes anyOf xs = collapsedMembers passes anyOf ys := by
  cases h with
  | exchange p q members =>
    rw [collapsedMembers_singleton, collapsedMembers_singleton, collapsed_when_singleton,
      collapsed_when_singleton, collapsed_when, collapsed_when]
    cases passes p <;> cases passes q <;> rfl
  | contract p members =>
    rw [collapsedMembers_singleton, collapsedMembers_singleton, collapsed_when_singleton,
      collapsed_when]
    cases passes p <;> rfl
  | split p xs ys =>
    simp only [collapsedMembers, collapsed_when_spliced, collapsedMembers_append]
    cases passes p <;> simp

theorem exists_mem_testsOfItems (h : ConditionalLaw anyOf xs ys) :
    ∃ test, test ∈ testsOfItems xs ∧ test ∈ testsOfItems ys := by
  cases h with
  | exchange p q members => exact ⟨p, by simp [testsOfItems, Item.tests, Head.test?]⟩
  | contract p members => exact ⟨p, by simp [testsOfItems, Item.tests, Head.test?]⟩
  | split p xs ys => exact ⟨p, by simp [testsOfItems, Item.tests, Head.test?]⟩

end ConditionalLaw

namespace Spec

theorem WellFormed.conditional_of_mem {spec : Spec α} {test : FlagTest} (hw : spec.WellFormed)
    (ht : test ∈ testsOfItems spec.items) : spec.conditional = true := by
  rw [hw.2, Bool.not_eq_true', List.isEmpty_eq_false_iff]
  exact List.ne_nil_of_mem ht

/-- What stands at an address is what fills the hole of a context with that address. Wherever the
items in the hole are one side of a law that holds there, evaluation leaves the same as if they
were the other side. -/
theorem evaluate_eq_of_law (spec : Spec α) (hw : spec.WellFormed) :
    (∀ address item,
        (∃ context : Context α, context.address = address ∧ context.fill [item] = spec.items) ↔
          ∃ tests, StandsAt spec.items address tests item) ∧
      ∀ (context : Context α) (xs ys : List (Item α)) (other : Spec α),
        ConditionalLaw (context.inAnyOf false) xs ys → context.fill xs = spec.items →
        other.WellFormed → context.fill ys = other.items →
        ∀ selection : FlagSelection, spec.evaluate selection = other.evaluate selection := by
  refine ⟨fun _ _ => Context.exists_fill_iff_standsAt, ?_⟩
  intro context xs ys other h hx ho hy selection
  -- the test of the law is on both sides, so neither is left as it is
  obtain ⟨test, htx, hty⟩ := h.exists_mem_testsOfItems
  have hc : spec.conditional = true :=
    hw.conditional_of_mem (hx ▸ context.subset_testsOfItems_fill xs htx)
  have hoc : other.conditional = true :=
    ho.conditional_of_mem (hy ▸ context.subset_testsOfItems_fill ys hty)
  have hm := context.collapsedMembers_fill_congr (h.collapsedMembers_eq selection.passes)
  rw [evaluate, evaluate, if_pos hc, if_pos hoc, collapse_eq_collapsedMembers,
    collapse_eq_collapsedMembers, ← hx, ← hy, hm]

/-- The nested conditionals in the any-of group change places. The other one may not be split there,
because its members would no longer be left as a conjunction. -/
theorem evaluate_eq_of_law_guardedSpec :
    let x : FlagTest := ⟨"x", true⟩
    let y : FlagTest := ⟨"y", true⟩
    let plain : FlagTest := ⟨"x", false⟩
    let context : Context String := .inside [] .anyOf
      (.here [.group (.when plain) [.term "a", .term "b"]] []) [.term "d"]
    let other : Spec String :=
      .ofItems (context.fill [.group (.when x) [.group (.when y) [.term "c"]]])
    let parts : Spec String := .ofItems [.group .anyOf [.group (.when plain) [.term "a"],
      .group (.when plain) [.term "b"], .group (.when y) [.group (.when x) [.term "c"]]], .term "d"]
    guardedSpec.WellFormed ∧ other.WellFormed ∧ context.address = [0, 1] ∧
      context.fill [.group (.when y) [.group (.when x) [.term "c"]]] = guardedSpec.items ∧
      guardedSpec.evaluate ⟨[], none⟩ = other.evaluate ⟨[], none⟩ ∧
      (guardedSpec.evaluate ⟨["x"], none⟩).items = [.term "a", .term "b", .term "d"] ∧
      (parts.evaluate ⟨["x"], none⟩).items =
        [.group .anyOf [.term "a", .term "b"], .term "d"] := by
  intro x y plain context other parts
  have ho : other.WellFormed :=
    wellFormed_ofItems (by simp [context, Context.fill, WellFormedItems, Item.WellFormed])
  have hf : context.fill [.group (.when y) [.group (.when x) [.term "c"]]] = guardedSpec.items :=
    rfl
  have hg : guardedSpec.conditional = true := conditional_ofItems _
  have hp : parts.conditional = true := conditional_ofItems _
  obtain ⟨-, hl⟩ := evaluate_eq_of_law guardedSpec guardedSpec_wellFormed
  refine ⟨guardedSpec_wellFormed, ho, rfl, hf, ?_, ?_, ?_⟩
  · exact hl context _ _ other (.exchange y x [.term "c"]) hf ho rfl ⟨[], none⟩
  · rw [evaluate, if_pos hg, collapse_eq_collapsedMembers]
    rfl
  · rw [evaluate, if_pos hp, collapse_eq_collapsedMembers]
    rfl

end Spec

end DepSpec
