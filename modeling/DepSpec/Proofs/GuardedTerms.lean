import DepSpec.Proofs.EvaluatedTerms

/-! The guard index against evaluation without a restriction. Of a term in the index, as many
occurrences are left as it has guards that hold; any other term is left if it occurs. -/

namespace DepSpec

variable {α : Type}

theorem FlagSelection.passes_unrestricted (enabled : List String) (test : FlagTest) :
    passes ⟨enabled, none⟩ test = test.holds enabled := by
  simp [passes, counts]

theorem Guard.holds_conjunction_tests (enabled : List String) (tests : List FlagTest) :
    (conjunction (tests.map test)).holds enabled = tests.all fun t => t.holds enabled := by
  rw [holds_conjunction, List.all_map]
  rfl

theorem mem_passing_of_unguarded {passes : FlagTest → Bool} {value : α}
    {found : List (α × List FlagTest)} (h : (value, []) ∈ found) : value ∈ passing passes found :=
  List.mem_map.mpr ⟨(value, []), List.mem_filter.mpr ⟨h, rfl⟩, rfl⟩

variable [DecidableEq α]

theorem GuardIndex.guardsOf_ne_nil_iff {value : α} {found : List (α × List FlagTest)} :
    guardsOf value found ≠ [] ↔ value ∈ found.map Prod.fst := by
  rw [guardsOf, Ne, List.map_eq_nil_iff, List.filter_eq_nil_iff]
  simp only [beq_iff_eq, List.mem_map, Classical.not_forall, Classical.not_not, exists_prop]

theorem count_passing (enabled : List String) (value : α) (found : List (α × List FlagTest)) :
    (passing (FlagSelection.passes ⟨enabled, none⟩) found).count value =
      (GuardIndex.guardsOf value found).countP (Guard.holds enabled) := by
  unfold passing GuardIndex.guardsOf
  rw [List.count_eq_countP, List.countP_map, List.countP_filter, List.countP_map,
    List.countP_filter]
  refine List.countP_congr fun occurrence _ => ?_
  have hp : occurrence.2.all (FlagSelection.passes ⟨enabled, none⟩) =
      (Guard.conjunction (occurrence.2.map .test)).holds enabled := by
    rw [Guard.holds_conjunction_tests]
    exact congrArg occurrence.2.all (funext (FlagSelection.passes_unrestricted enabled))
  simp [hp, and_comm]

variable [Hashable α]

namespace Spec

theorem getElem?_guardIndex_eq_some_iff {spec : Spec α} {value : α} {guards : List Guard} :
    spec.guardIndex[value]? = some guards ↔
      spec.conditional = true ∧ (value, []) ∉ occurrences spec.items ∧ guards ≠ [] ∧
        GuardIndex.guardsOf value (occurrences spec.items) = guards := by
  unfold guardIndex
  by_cases hc : spec.conditional = true
  · rw [if_pos hc, GuardIndex.getElem?_ofOccurrences]
    split <;> grind
  · simp [hc]

theorem mem_guardIndex_iff {spec : Spec α} {value : α} :
    value ∈ spec.guardIndex ↔
      spec.conditional = true ∧ (value, []) ∉ occurrences spec.items ∧ value ∈ spec.terms := by
  rw [Std.HashMap.mem_iff_isSome_getElem?, Option.isSome_iff_exists, ← map_fst_occurrences,
    ← GuardIndex.guardsOf_ne_nil_iff]
  simp only [getElem?_guardIndex_eq_some_iff]
  constructor
  · rintro ⟨guards, hc, hu, hne, rfl⟩
    exact ⟨hc, hu, hne⟩
  · rintro ⟨hc, hu, hne⟩
    exact ⟨_, hc, hu, hne, rfl⟩

theorem count_terms_evaluate {spec : Spec α} {value : α} {guards : List Guard}
    (enabled : List String) (h : spec.guardIndex[value]? = some guards) :
    (spec.evaluate ⟨enabled, none⟩).terms.count value = guards.countP (Guard.holds enabled) := by
  obtain ⟨hc, -, -, rfl⟩ := getElem?_guardIndex_eq_some_iff.mp h
  rw [terms_evaluate_eq_passing hc, count_passing]

/-- What is not in the index is required whatever the flags, if at all. -/
theorem mem_terms_evaluate_iff_of_not_mem_guardIndex {spec : Spec α} {value : α}
    (selection : FlagSelection) (h : value ∉ spec.guardIndex) :
    value ∈ (spec.evaluate selection).terms ↔ value ∈ spec.terms := by
  by_cases hc : spec.conditional = true
  · rw [terms_evaluate_eq_passing hc]
    constructor
    · intro hm
      rw [← map_fst_occurrences]
      exact passing_subset _ _ hm
    · intro hm
      have hu : (value, []) ∈ occurrences spec.items :=
        Classical.byContradiction fun hu => h (mem_guardIndex_iff.mpr ⟨hc, hu, hm⟩)
      exact mem_passing_of_unguarded hu
  · rw [evaluate, if_neg hc]

/-- The guards of a term in the index tell how often it is left, and any other term is left if it
occurs at all. So a term is left if it occurs and is not in the index, or if a guard of it holds. -/
theorem guardIndex_predicts_terms_evaluate (spec : Spec α) (enabled : List String) (value : α) :
    (∀ guards, spec.guardIndex[value]? = some guards →
        (spec.evaluate ⟨enabled, none⟩).terms.count value = guards.countP (Guard.holds enabled)) ∧
      (value ∉ spec.guardIndex →
        (value ∈ (spec.evaluate ⟨enabled, none⟩).terms ↔ value ∈ spec.terms)) ∧
      (value ∈ (spec.evaluate ⟨enabled, none⟩).terms ↔
        (value ∈ spec.terms ∧ value ∉ spec.guardIndex) ∨
          ∃ guards, spec.guardIndex[value]? = some guards ∧
            ∃ guard ∈ guards, guard.holds enabled = true) := by
  refine ⟨fun guards h => count_terms_evaluate enabled h,
    mem_terms_evaluate_iff_of_not_mem_guardIndex _, ?_⟩
  by_cases hm : value ∈ spec.guardIndex
  · have hs := Std.HashMap.getElem?_eq_some_getElem hm
    rw [← List.count_pos_iff, count_terms_evaluate enabled hs, List.countP_pos_iff]
    simp [hm]
  · rw [mem_terms_evaluate_iff_of_not_mem_guardIndex _ hm]
    simp [hm]

end Spec

/-- A term guarded twice, once by two conditionals, and another one guarded and required. -/
def repeatedSpec : Spec String :=
  .ofItems [.group .anyOf [.group (.when ⟨"x", false⟩) [.term "a", .term "b"],
    .group (.when ⟨"y", true⟩) [.group (.when ⟨"x", false⟩) [.term "a"]]], .term "b"]

theorem Spec.guardIndex_predicts_repeatedSpec :
    repeatedSpec.guardIndex["a"]? =
        some [.test ⟨"x", false⟩, .all [.test ⟨"y", true⟩, .test ⟨"x", false⟩]] ∧
      (repeatedSpec.evaluate ⟨["x"], none⟩).terms.count "a" = 2 ∧
      "b" ∉ repeatedSpec.guardIndex ∧ "b" ∈ (repeatedSpec.evaluate ⟨[], none⟩).terms := by
  have ho : occurrences repeatedSpec.items =
      [("a", [⟨"x", false⟩]), ("b", [⟨"x", false⟩]), ("a", [⟨"y", true⟩, ⟨"x", false⟩]),
        ("b", [])] := by
    rw [occurrences_eq_occurrencesUnder]
    rfl
  have ha : repeatedSpec.guardIndex["a"]? =
      some [.test ⟨"x", false⟩, .all [.test ⟨"y", true⟩, .test ⟨"x", false⟩]] := by
    rw [getElem?_guardIndex_eq_some_iff, ho]
    exact ⟨Spec.conditional_ofItems _, by decide, by simp, rfl⟩
  have hb : "b" ∉ repeatedSpec.guardIndex := by
    rw [mem_guardIndex_iff, ho]
    exact fun h => h.2.1 (by decide)
  have ht : repeatedSpec.terms = ["a", "b", "a", "b"] := terms_eq_termsOfItems _
  obtain ⟨hc, -, -⟩ := guardIndex_predicts_terms_evaluate repeatedSpec ["x"] "a"
  obtain ⟨-, hn, -⟩ := guardIndex_predicts_terms_evaluate repeatedSpec [] "b"
  exact ⟨ha, (hc _ ha).trans (by decide), hb, (hn hb).mpr (by simp [ht])⟩

end DepSpec
