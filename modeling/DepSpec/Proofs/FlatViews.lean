import DepSpec.Proofs.GuardedTerms
import DepSpec.Proofs.RoundTrip

/-! The flat form tells the same as the items it comes from: which terms stand under which guards,
and what is asked for. So does a specification that is read back from its text. -/

namespace DepSpec

variable {α : Type}

mutual

theorem Item.occurrences_flattened (guards : List FlagTest) (inAnyOf : Bool) (item : Item α) :
    occurrencesUnder guards (item.flattened inAnyOf) = item.occurrences guards := by
  match item with
  | .term value => rfl
  | .group .allOf members =>
    have hm := occurrencesUnder_flattenedItems guards false members
    cases inAnyOf <;>
      simp [Item.flattened, occurrencesUnder, Item.occurrences, Head.test?, hm]
  | .group .anyOf members =>
    have hm := occurrencesUnder_flattenedItems guards true members
    simp [Item.flattened, occurrencesUnder, Item.occurrences, Head.test?, hm]
  | .group (.when test) members =>
    have hm := occurrencesUnder_flattenedItems (guards ++ [test]) false members
    simp [Item.flattened, occurrencesUnder, Item.occurrences, Head.test?, hm]

/-- A conjunction is no guard, so its members keep their guards where it is dissolved. -/
theorem occurrencesUnder_flattenedItems (guards : List FlagTest) (inAnyOf : Bool)
    (items : List (Item α)) :
    occurrencesUnder guards (flattenedItems inAnyOf items) = occurrencesUnder guards items := by
  match items with
  | [] => rfl
  | item :: items =>
    rw [flattenedItems, occurrencesUnder_append, Item.occurrences_flattened guards inAnyOf item,
      occurrencesUnder_flattenedItems guards inAnyOf items, occurrencesUnder]

end

mutual

theorem Item.truth_flattened (passes : FlagTest → Bool) (satisfied : α → Bool) (inAnyOf : Bool)
    (item : Item α) :
    truthOfItems passes satisfied inAnyOf (item.flattened inAnyOf) =
      item.truth passes satisfied := by
  match item with
  | .term value => simp [Item.flattened, truthOfItems, joinTruth_none]
  | .group .allOf members =>
    have hm := truthOfItems_flattenedItems passes satisfied false members
    cases inAnyOf <;>
      simp [Item.flattened, truthOfItems, Item.truth, joinTruth_none, Head.passes, Head.isAnyOf, hm]
  | .group .anyOf members =>
    have hm := truthOfItems_flattenedItems passes satisfied true members
    simp [Item.flattened, truthOfItems, Item.truth, joinTruth_none, Head.passes, Head.isAnyOf, hm]
  | .group (.when test) members =>
    have hm := truthOfItems_flattenedItems passes satisfied false members
    simp [Item.flattened, truthOfItems, Item.truth, joinTruth_none, Head.isAnyOf, hm]

/-- A conjunction is dissolved only among members that are all asked for themselves. -/
theorem truthOfItems_flattenedItems (passes : FlagTest → Bool) (satisfied : α → Bool)
    (inAnyOf : Bool) (items : List (Item α)) :
    truthOfItems passes satisfied inAnyOf (flattenedItems inAnyOf items) =
      truthOfItems passes satisfied inAnyOf items := by
  match items with
  | [] => rfl
  | item :: items =>
    rw [flattenedItems, truthOfItems_append, Item.truth_flattened passes satisfied inAnyOf item,
      truthOfItems_flattenedItems passes satisfied inAnyOf items, truthOfItems]

end

namespace Spec

theorem terms_flattened (spec : Spec α) : spec.flattened.terms = spec.terms := by
  rw [terms_eq_termsOfItems, terms_eq_termsOfItems, flattened, termsOfItems_flattenedItems]

theorem flags_flattened (spec : Spec α) : spec.flattened.flags = spec.flags := by
  rw [flags_eq, flags_eq, flattened, testsOfItems_flattenedItems]

theorem guardIndex_flattened [BEq α] [Hashable α] (spec : Spec α) :
    spec.flattened.guardIndex = spec.guardIndex := by
  rw [guardIndex, guardIndex, flattened, occurrences_eq_occurrencesUnder,
    occurrences_eq_occurrencesUnder, occurrencesUnder_flattenedItems]

theorem presentTruth_flattened (selection : FlagSelection) (satisfied : α → Bool)
    (spec : Spec α) :
    spec.flattened.presentTruth selection satisfied = spec.presentTruth selection satisfied :=
  truthOfItems_flattenedItems _ satisfied false spec.items

theorem Legible.parseText_text {spec : Spec String} (h : spec.Legible id) (hw : spec.WellFormed) :
    parseText spec.text = .ok spec.flattened := by
  have hp := h.parseText_render hw
  rwa [map_id] at hp

/-- What is read back from the text of a legible specification has the same mark, the same terms in
the same order, the same flags, the same guards of each term, and asks for the same. -/
theorem parseText_text_tells_same (spec : Spec String) (hw : spec.WellFormed)
    (hl : spec.Legible id) :
    ∃ again, parseText spec.text = .ok again ∧
      again.conditional = spec.conditional ∧ again.terms = spec.terms ∧
      again.flags = spec.flags ∧
      (∀ value : String, again.guardIndex[value]? = spec.guardIndex[value]?) ∧
      ∀ selection satisfied,
        again.presentTruth selection satisfied = spec.presentTruth selection satisfied := by
  refine ⟨spec.flattened, hl.parseText_text hw, rfl, terms_flattened spec, flags_flattened spec,
    fun value => ?_, fun selection satisfied => presentTruth_flattened selection satisfied spec⟩
  rw [guardIndex_flattened]

/-- One conjunction is kept in an any-of group, the other one is dissolved below the guard of its
term. -/
theorem parseText_text_tells_same_nestedSpec :
    let again : Spec String :=
      ⟨[.group .anyOf [.group .allOf [.term "a"], .term "b"],
        .group (.when ⟨"(x", true⟩) [.term "c"]], true⟩
    nestedSpec.WellFormed ∧ nestedSpec.Legible id ∧ parseText nestedSpec.text = .ok again ∧
      again.flags = ["(x"] ∧ again.terms = ["a", "b", "c"] ∧
      again.guardIndex["c"]? = some [.test ⟨"(x", true⟩] ∧
      again.presentTruth ⟨["(x"], none⟩ (· = "b") = some true := by
  intro again
  obtain ⟨found, hp, -, ht, hf, hg, hs⟩ :=
    parseText_text_tells_same nestedSpec nestedSpec_wellFormed nestedSpec_legible
  have hc : nestedSpec.conditional = true := conditional_ofItems _
  have ha : parseText nestedSpec.text = .ok again := by
    rw [nestedSpec_legible.parseText_text nestedSpec_wellFormed, flattened, hc]
    rfl
  obtain rfl : found = again := Except.ok.inj (hp.symm.trans ha)
  have ho : occurrences nestedSpec.items = [("a", []), ("b", []), ("c", [⟨"(x", true⟩])] := by
    rw [occurrences_eq_occurrencesUnder]
    rfl
  refine ⟨nestedSpec_wellFormed, nestedSpec_legible, ha, hf.trans ?_, ht.trans ?_,
    (hg "c").trans ?_, (hs _ _).trans (by decide)⟩
  · have hn : (testsOfItems nestedSpec.items).map FlagTest.flag = ["(x"] := rfl
    rw [flags_eq, if_pos hc, hn]
    simp [sortedNames, withoutRepeats]
  · rw [terms_eq_termsOfItems]
    rfl
  · rw [getElem?_guardIndex_eq_some_iff, ho]
    exact ⟨hc, by decide, by simp, rfl⟩

end Spec

end DepSpec
