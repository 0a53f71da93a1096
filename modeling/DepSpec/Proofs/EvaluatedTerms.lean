import DepSpec.NormalForm
import DepSpec.Occurrences
import DepSpec.Proofs.EvaluatedMeaning

/-! Evaluation keeps, in order, the occurrences of terms all of whose guards are admitted. Nothing
is left only if there is no such occurrence. -/

namespace DepSpec

variable {α : Type}

mutual

theorem Item.map_fst_occurrences (guards : List FlagTest) (item : Item α) :
    (item.occurrences guards).map Prod.fst = item.terms := by
  match item with
  | .term value => rfl
  | .group head members =>
    rw [Item.occurrences, Item.terms, map_fst_occurrencesUnder _ members]

theorem map_fst_occurrencesUnder (guards : List FlagTest) (items : List (Item α)) :
    (occurrencesUnder guards items).map Prod.fst = termsOfItems items := by
  match items with
  | [] => rfl
  | item :: items =>
    rw [occurrencesUnder, List.map_append, Item.map_fst_occurrences guards item,
      map_fst_occurrencesUnder guards items, termsOfItems]

end

mutual

theorem Item.guards_of_mem_occurrences {guards : List FlagTest} {found : α × List FlagTest}
    (item : Item α) (h : found ∈ item.occurrences guards) : guards ⊆ found.2 := by
  match item with
  | .term value =>
    rw [Item.occurrences, List.mem_singleton] at h
    rw [h]
    exact List.Subset.refl guards
  | .group head members =>
    rw [Item.occurrences] at h
    exact List.Subset.trans (List.subset_append_left guards _)
      (guards_of_mem_occurrencesUnder members h)

theorem guards_of_mem_occurrencesUnder {guards : List FlagTest} {found : α × List FlagTest}
    (items : List (Item α)) (h : found ∈ occurrencesUnder guards items) : guards ⊆ found.2 := by
  match items with
  | [] => simp [occurrencesUnder] at h
  | item :: items =>
    rw [occurrencesUnder] at h
    rcases List.mem_append.mp h with h | h
    · exact Item.guards_of_mem_occurrences item h
    · exact guards_of_mem_occurrencesUnder items h

end

/-- The occurrences all of whose guards pass. -/
def passing (passes : FlagTest → Bool) (found : List (α × List FlagTest)) : List α :=
  (found.filter fun occurrence => occurrence.2.all passes).map Prod.fst

theorem passing_append (passes : FlagTest → Bool) (xs ys : List (α × List FlagTest)) :
    passing passes (xs ++ ys) = passing passes xs ++ passing passes ys := by
  simp [passing]

theorem passing_subset (passes : FlagTest → Bool) (found : List (α × List FlagTest)) :
    passing passes found ⊆ found.map Prod.fst :=
  List.map_subset _ (List.filter_sublist.subset)

theorem passing_occurrencesUnder_eq_nil {passes : FlagTest → Bool} {guards : List FlagTest}
    (items : List (Item α)) (h : guards.all passes = false) :
    passing passes (occurrencesUnder guards items) = [] := by
  have hf : (occurrencesUnder guards items).filter (fun o => o.2.all passes) = [] := by
    refine List.filter_eq_nil_iff.mpr fun found hm ha => ?_
    obtain ⟨guard, hg, hn⟩ := List.all_eq_false.mp h
    exact hn (List.all_eq_true.mp ha guard (guards_of_mem_occurrencesUnder items hm hg))
  rw [passing, hf, List.map_nil]

mutual

theorem Item.passing_occurrences {passes : FlagTest → Bool} (guards : List FlagTest)
    (item : Item α) (h : guards.all passes = true) :
    passing passes (item.occurrences guards) = item.survivors passes := by
  match item with
  | .term value => simp [Item.occurrences, passing, Item.survivors, h]
  | .group head members =>
    have ha : (guards ++ head.test?.toList).all passes = head.passes passes := by
      cases head <;> simp [h, Head.test?, Head.passes]
    rw [Item.occurrences, Item.survivors]
    by_cases hp : head.passes passes = true
    · rw [if_pos hp, passing_occurrencesUnder _ members (ha.trans hp)]
    · have hn : head.passes passes = false := by simpa using hp
      rw [if_neg hp, passing_occurrencesUnder_eq_nil members (ha.trans hn)]

theorem passing_occurrencesUnder {passes : FlagTest → Bool} (guards : List FlagTest)
    (items : List (Item α)) (h : guards.all passes = true) :
    passing passes (occurrencesUnder guards items) = survivorsOfItems passes items := by
  match items with
  | [] => rfl
  | item :: items =>
    rw [occurrencesUnder, passing_append, Item.passing_occurrences guards item h,
      passing_occurrencesUnder guards items h, survivorsOfItems]

end

mutual

theorem Item.Normal.wellFormed {inAnyOf : Bool} (item : Item α) (h : item.Normal inAnyOf) :
    item.WellFormed := by
  match item with
  | .term value => trivial
  | .group .allOf members =>
    rw [Item.Normal] at h
    exact ⟨List.ne_nil_of_length_pos (by omega), NormalItems.wellFormed members h.2.2⟩
  | .group .anyOf members =>
    rw [Item.Normal] at h
    exact ⟨List.ne_nil_of_length_pos (by omega), NormalItems.wellFormed members h.2⟩
  | .group (.when test) members => exact absurd h (by simp [Item.Normal])

theorem NormalItems.wellFormed {inAnyOf : Bool} (items : List (Item α))
    (h : NormalItems inAnyOf items) : WellFormedItems items := by
  match items with
  | [] => trivial
  | item :: items =>
    rw [NormalItems] at h
    exact ⟨Item.Normal.wellFormed item h.1, NormalItems.wellFormed items h.2⟩

end

theorem WellFormedItems.terms_eq_nil_iff {items : List (Item α)} (h : WellFormedItems items) :
    termsOfItems items = [] ↔ items = [] := by
  constructor
  · intro ht
    cases items with
    | nil => rfl
    | cons item items => exact absurd ht (WellFormedItems.terms_ne_nil _ (by simp) h)
  · rintro rfl
    rfl

mutual

theorem Item.survivors_eq_terms {passes : FlagTest → Bool} (item : Item α)
    (h : ∀ test ∈ item.tests, passes test = true) : item.survivors passes = item.terms := by
  match item with
  | .term value => rfl
  | .group head members =>
    have hm := survivorsOfItems_eq_terms members fun test ht => h test (by simp [Item.tests, ht])
    have hp : head.passes passes = true := by
      cases head with
      | allOf => rfl
      | anyOf => rfl
      | when test => exact h test (by simp [Item.tests, Head.test?])
    rw [Item.survivors, if_pos hp, hm, Item.terms]

theorem survivorsOfItems_eq_terms {passes : FlagTest → Bool} (items : List (Item α))
    (h : ∀ test ∈ testsOfItems items, passes test = true) :
    survivorsOfItems passes items = termsOfItems items := by
  match items with
  | [] => rfl
  | item :: items =>
    rw [survivorsOfItems, termsOfItems,
      Item.survivors_eq_terms item fun test ht => h test (by simp [testsOfItems, ht]),
      survivorsOfItems_eq_terms items fun test ht => h test (by simp [testsOfItems, ht])]

end

theorem Spec.map_fst_occurrences (spec : Spec α) :
    (occurrences spec.items).map Prod.fst = spec.terms := by
  rw [occurrences_eq_occurrencesUnder, map_fst_occurrencesUnder, terms_eq_termsOfItems]

theorem Spec.terms_evaluate_eq_passing {spec : Spec α} (hc : spec.conditional = true)
    (selection : FlagSelection) :
    (spec.evaluate selection).terms = passing selection.passes (occurrences spec.items) := by
  rw [terms_eq_termsOfItems, evaluate, if_pos hc, terms_collapse, occurrences_eq_occurrencesUnder,
    passing_occurrencesUnder [] spec.items rfl]

theorem Spec.terms_evaluate_subset (selection : FlagSelection) (spec : Spec α) :
    (spec.evaluate selection).terms ⊆ spec.terms := by
  by_cases hc : spec.conditional = true
  · rw [terms_evaluate_eq_passing hc, ← map_fst_occurrences]
    exact passing_subset selection.passes (occurrences spec.items)
  · rw [evaluate, if_neg hc]
    exact List.Subset.refl _

theorem Spec.WellFormed.terms_evaluate {spec : Spec α} (h : spec.WellFormed)
    (selection : FlagSelection) :
    (spec.evaluate selection).terms = survivorsOfItems selection.passes spec.items := by
  rw [terms_eq_termsOfItems]
  unfold evaluate
  by_cases hc : spec.conditional = true
  · rw [if_pos hc, terms_collapse]
  · have ht := h.testsOfItems_eq_nil (by simpa using hc)
    rw [if_neg hc, survivorsOfItems_eq_terms spec.items (by simp [ht])]

theorem Spec.WellFormed.wellFormedItems_evaluate {spec : Spec α} (h : spec.WellFormed)
    (selection : FlagSelection) : WellFormedItems (spec.evaluate selection).items := by
  unfold evaluate
  by_cases hc : spec.conditional = true
  · rw [if_pos hc]
    exact NormalItems.wellFormed _ (normal_collapse selection.passes spec.items)
  · rw [if_neg hc]
    exact h.1

/-- The terms are those of all occurrences in order. Evaluation keeps exactly the ones in no
conditional that is not admitted, at whatever distance, in the same order. -/
theorem Spec.terms_evaluate_eq_filter (selection : FlagSelection) (spec : Spec α)
    (hw : spec.WellFormed) :
    spec.terms = (occurrencesUnder [] spec.items).map Prod.fst ∧
      (spec.evaluate selection).terms =
        ((occurrencesUnder [] spec.items).filter fun occurrence =>
          ¬ ∃ test ∈ occurrence.2, ¬ selection.Admits test).map Prod.fst ∧
      ((spec.evaluate selection).items = [] ↔
        ∀ occurrence ∈ occurrencesUnder [] spec.items,
          ∃ test ∈ occurrence.2, ¬ selection.Admits test) := by
  have hp : ∀ occurrence : α × List FlagTest, occurrence.2.all selection.passes =
      decide (¬ ∃ test ∈ occurrence.2, ¬ selection.Admits test) := by
    intro occurrence
    rw [Bool.eq_iff_iff, List.all_eq_true, decide_eq_true_iff]
    simp [FlagSelection.passes_iff_admits]
  have hs : (spec.evaluate selection).terms =
      ((occurrencesUnder [] spec.items).filter fun occurrence =>
        ¬ ∃ test ∈ occurrence.2, ¬ selection.Admits test).map Prod.fst := by
    rw [hw.terms_evaluate, ← passing_occurrencesUnder [] spec.items rfl, passing]
    simp only [hp]
  refine ⟨?_, hs, ?_⟩
  · rw [terms_eq_termsOfItems, map_fst_occurrencesUnder]
  · rw [← (hw.wellFormedItems_evaluate selection).terms_eq_nil_iff, ← terms_eq_termsOfItems, hs,
      List.map_eq_nil_iff, List.filter_eq_nil_iff]
    simp

theorem Spec.terms_evaluate_guardedSpec :
    guardedSpec.WellFormed ∧
      (guardedSpec.evaluate ⟨["x"], some ["x"]⟩).terms = ["a", "b", "d"] ∧
      (guardedSpec.evaluate ⟨["x"], some ["x"]⟩).items ≠ [] := by
  obtain ⟨-, ht, he⟩ :=
    terms_evaluate_eq_filter ⟨["x"], some ["x"]⟩ guardedSpec guardedSpec_wellFormed
  refine ⟨guardedSpec_wellFormed, ht.trans (by decide), fun h => ?_⟩
  exact absurd (he.mp h ("d", [])) (by decide)

end DepSpec
