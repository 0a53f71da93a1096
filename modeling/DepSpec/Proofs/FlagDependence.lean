import DepSpec.Proofs.EvaluatedMeaning

/-! Evaluation depends on a selection only through the flags of the specification: which of them it
is restricted to, and which of these are enabled. -/

namespace DepSpec

variable {α : Type}

mutual

theorem Item.collapsed_congr {p q : FlagTest → Bool} (outerAnyOf : Bool) (item : Item α)
    (h : ∀ test ∈ item.tests, p test = q test) :
    item.collapsed p outerAnyOf = item.collapsed q outerAnyOf := by
  match item with
  | .term value => rfl
  | .group head members =>
    have hp : head.passes p = head.passes q :=
      Head.passes_congr fun test ht => h test (by simp [Item.tests, Option.mem_def.mp ht])
    have hm := collapsedMembers_congr head.isAnyOf members fun test ht =>
      h test (by simp [Item.tests, ht])
    rw [Item.collapsed, Item.collapsed, hp, hm]

/-- What items collapse to depends on the tests that occur in them only. -/
theorem collapsedMembers_congr {p q : FlagTest → Bool} (anyOf : Bool) (items : List (Item α))
    (h : ∀ test ∈ testsOfItems items, p test = q test) :
    collapsedMembers p anyOf items = collapsedMembers q anyOf items := by
  match items with
  | [] => rfl
  | item :: items =>
    rw [collapsedMembers, collapsedMembers,
      Item.collapsed_congr anyOf item fun test ht => h test (by simp [testsOfItems, ht]),
      collapsedMembers_congr anyOf items fun test ht => h test (by simp [testsOfItems, ht])]

end

namespace FlagSelection

/-- The flag is among those to which evaluation is restricted, if it is restricted at all. -/
def InScope (selection : FlagSelection) (flag : String) : Prop :=
  ∀ flags ∈ selection.restriction, flag ∈ flags

theorem passes_iff_of_inScope {selection : FlagSelection} {test : FlagTest} :
    selection.passes test = true ↔
      (selection.InScope test.flag →
        (test.flag ∈ selection.enabled ↔ test.negated = false)) := by
  have hs : selection.InScope test.flag ↔
      ¬ ∃ flags, selection.restriction = some flags ∧ test.flag ∉ flags := by
    simp [InScope]
  rw [passes_iff_admits, Admits, hs, Classical.or_iff_not_imp_left]

theorem passes_congr {s t : FlagSelection} {test : FlagTest}
    (hs : s.InScope test.flag ↔ t.InScope test.flag)
    (he : s.InScope test.flag → t.InScope test.flag →
      (test.flag ∈ s.enabled ↔ test.flag ∈ t.enabled)) :
    s.passes test = t.passes test := by
  rw [Bool.eq_iff_iff, passes_iff_of_inScope, passes_iff_of_inScope, ← hs]
  exact forall_congr' fun h => by rw [he h (hs.mp h)]

end FlagSelection

namespace Spec

theorem mem_flags_of_mem_testsOfItems {spec : Spec α} {test : FlagTest}
    (hc : spec.conditional = true) (h : test ∈ testsOfItems spec.items) :
    test.flag ∈ spec.flags := by
  rw [flags_eq, if_pos hc, mem_sortedNames]
  exact List.mem_map_of_mem h

theorem evaluate_congr {s t : FlagSelection} {spec : Spec α}
    (hs : ∀ flag ∈ spec.flags, s.InScope flag ↔ t.InScope flag)
    (he : ∀ flag ∈ spec.flags, s.InScope flag → t.InScope flag →
      (flag ∈ s.enabled ↔ flag ∈ t.enabled)) :
    spec.evaluate s = spec.evaluate t := by
  unfold evaluate
  by_cases hc : spec.conditional = true
  · have hp : ∀ test ∈ testsOfItems spec.items, s.passes test = t.passes test := by
      intro test ht
      have hf := mem_flags_of_mem_testsOfItems hc ht
      exact FlagSelection.passes_congr (hs _ hf) (he _ hf)
    rw [if_pos hc, if_pos hc, collapse_eq_collapsedMembers, collapse_eq_collapsedMembers,
      collapsedMembers_congr false spec.items hp]
  · rw [if_neg hc, if_neg hc]

theorem evaluate_ofNames (enabled : List String) (restriction : Option (List String))
    (spec : Spec α) : spec.evaluate (.ofNames enabled restriction) =
      spec.evaluate ⟨enabled, restriction⟩ := by
  refine evaluate_congr (fun flag _ => ?_) fun flag _ _ _ => mem_sortedNames
  cases restriction with
  | none => rfl
  | some flags => simp [FlagSelection.InScope, FlagSelection.ofNames, mem_sortedNames]

/-- Two selections leave the same of a specification if they are restricted to the same of its flags
and agree on which of these are enabled. So a restriction that lets each of its flags count is none,
flags that it does not have never matter, and neither do order and repetition. -/
theorem evaluate_eq_of_agree_on_flags (spec : Spec α) :
    (∀ s t : FlagSelection,
        (∀ flag ∈ spec.flags, s.InScope flag ↔ t.InScope flag) →
        (∀ flag ∈ spec.flags, s.InScope flag → t.InScope flag →
          (flag ∈ s.enabled ↔ flag ∈ t.enabled)) →
        spec.evaluate s = spec.evaluate t) ∧
      (∀ enabled restriction, spec.flags ⊆ restriction →
        spec.evaluate ⟨enabled, some restriction⟩ = spec.evaluate ⟨enabled, none⟩) ∧
      ∀ enabled restriction,
        spec.evaluate
            ⟨enabled.filter (· ∈ spec.flags), restriction.map (·.filter (· ∈ spec.flags))⟩ =
          spec.evaluate ⟨enabled, restriction⟩ ∧
        spec.evaluate (.ofNames enabled restriction) = spec.evaluate ⟨enabled, restriction⟩ := by
  refine ⟨fun s t => evaluate_congr, fun enabled restriction hf => ?_,
    fun enabled restriction => ⟨?_, evaluate_ofNames enabled restriction spec⟩⟩
  · refine evaluate_congr (fun flag h => ?_) fun flag _ _ _ => Iff.rfl
    simp [FlagSelection.InScope, hf h]
  · refine evaluate_congr (fun flag h => ?_) fun flag h _ _ => ?_
    · cases restriction with
      | none => simp [FlagSelection.InScope]
      | some flags => simp [FlagSelection.InScope, h]
    · simp [h]

theorem mem_flags_guardedSpec {flag : String} (h : flag ∈ guardedSpec.flags) :
    flag = "x" ∨ flag = "y" := by
  have hc : guardedSpec.conditional = true := conditional_ofItems _
  rw [flags_eq, if_pos hc, mem_sortedNames] at h
  simpa [guardedSpec, ofItems, testsOfItems, Item.tests, Head.test?, or_comm] using h

/-- One of the selections repeats a flag, both know one that does not occur, and the flag in which
they differ is out of scope. -/
theorem evaluate_eq_of_agree_on_flags_guardedSpec :
    let s : FlagSelection := ⟨["x", "z", "x"], some ["x"]⟩
    let t : FlagSelection := ⟨["y", "x"], some ["z", "x"]⟩
    (∀ flag ∈ guardedSpec.flags, s.InScope flag ↔ t.InScope flag) ∧
      (∀ flag ∈ guardedSpec.flags, s.InScope flag → t.InScope flag →
        (flag ∈ s.enabled ↔ flag ∈ t.enabled)) ∧
      guardedSpec.evaluate s = guardedSpec.evaluate t ∧
      guardedSpec.flags ⊆ ["z", "y", "x"] ∧
      guardedSpec.evaluate ⟨["x"], some ["z", "y", "x"]⟩ = guardedSpec.evaluate ⟨["x"], none⟩ := by
  intro s t
  have hs : ∀ flag ∈ guardedSpec.flags, s.InScope flag ↔ t.InScope flag := by
    intro flag h
    rcases mem_flags_guardedSpec h with rfl | rfl <;> simp [s, t, FlagSelection.InScope]
  have he : ∀ flag ∈ guardedSpec.flags, s.InScope flag → t.InScope flag →
      (flag ∈ s.enabled ↔ flag ∈ t.enabled) := by
    intro flag h
    rcases mem_flags_guardedSpec h with rfl | rfl <;> simp [s, t, FlagSelection.InScope]
  have hf : guardedSpec.flags ⊆ ["z", "y", "x"] := by
    intro flag h
    rcases mem_flags_guardedSpec h with rfl | rfl <;> simp
  obtain ⟨hst, hr, -⟩ := evaluate_eq_of_agree_on_flags guardedSpec
  exact ⟨hs, he, hst s t hs he, hf, hr ["x"] _ hf⟩

end Spec

end DepSpec
