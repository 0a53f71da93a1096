import DepSpec.Places
import DepSpec.Proofs.GuardedTerms

/-! The guard index against the places of terms. A term is in the index if it stands somewhere, and
nowhere without a conditional around it; its guards are then those of its places, one for each. The
index of a specification without conditionals would be empty anyway. -/

namespace DepSpec

variable {α : Type}

/-- The guard of what is in conditionals with the given tests. A single test stands for itself. -/
def Guard.ofTests : List FlagTest → Guard
  | [t] => .test t
  | tests => .all (tests.map .test)

theorem Guard.conjunction_tests (tests : List FlagTest) :
    conjunction (tests.map test) = ofTests tests := by
  match tests with
  | [] => rfl
  | [_] => rfl
  | _ :: _ :: _ => rfl

theorem occurrences_eq_map_places (items : List (Item α)) :
    occurrences items = (placesFrom 0 items).map fun place => (place.value, place.tests) := by
  rw [occurrences_eq_occurrencesUnder, ← map_placesFrom [] 0 items]
  rfl

theorem mem_occurrences_iff {items : List (Item α)} {value : α} {tests : List FlagTest} :
    (value, tests) ∈ occurrences items ↔
      ∃ address, StandsAt items address tests (.term value) := by
  rw [occurrences_eq_map_places, List.mem_map]
  constructor
  · rintro ⟨place, hm, he⟩
    obtain ⟨rfl, rfl⟩ := Prod.mk.inj he
    exact ⟨place.address, mem_places_iff.mp hm⟩
  · rintro ⟨address, hs⟩
    exact ⟨⟨address, tests, value⟩, mem_places_iff.mpr hs, rfl⟩

theorem Spec.mem_terms_iff_occurs {spec : Spec α} {value : α} :
    value ∈ spec.terms ↔ Occurs spec.items (.term value) := by
  rw [← map_fst_occurrences, List.mem_map]
  constructor
  · rintro ⟨⟨value, tests⟩, hm, rfl⟩
    obtain ⟨address, hs⟩ := mem_occurrences_iff.mp hm
    exact ⟨address, tests, hs⟩
  · rintro ⟨address, tests, hs⟩
    exact ⟨(value, tests), mem_occurrences_iff.mpr ⟨address, hs⟩, rfl⟩

theorem Spec.WellFormed.tests_eq_nil {spec : Spec α} (h : spec.WellFormed)
    (hc : spec.conditional = false) {address : List Nat} {tests : List FlagTest} {item : Item α}
    (hs : StandsAt spec.items address tests item) : tests = [] := by
  have ht := hs.tests_subset
  rw [h.testsOfItems_eq_nil hc] at ht
  exact List.subset_nil.mp ht

variable [DecidableEq α]

theorem guardsOf_occurrences (value : α) (items : List (Item α)) :
    GuardIndex.guardsOf value (occurrences items) =
      ((placesFrom 0 items).filter fun place => place.value == value).map fun place =>
        .ofTests place.tests := by
  rw [occurrences_eq_map_places, GuardIndex.guardsOf, List.filter_map, List.map_map]
  exact List.map_congr_left fun place _ => Guard.conjunction_tests place.tests

variable [Hashable α]

namespace Spec

theorem WellFormed.getElem?_ofOccurrences {spec : Spec α} (h : spec.WellFormed) (value : α) :
    (GuardIndex.ofOccurrences (occurrences spec.items))[value]? = spec.guardIndex[value]? := by
  unfold guardIndex
  by_cases hc : spec.conditional = true
  · rw [if_pos hc]
  · -- whatever stands somewhere stands there without a guard
    have hn : spec.conditional = false := by simpa using hc
    have hu : GuardIndex.guardsOf value (occurrences spec.items) ≠ [] →
        (value, []) ∈ occurrences spec.items := by
      intro hg
      obtain ⟨⟨found, tests⟩, hm, rfl⟩ := List.mem_map.mp (GuardIndex.guardsOf_ne_nil_iff.mp hg)
      obtain ⟨address, hs⟩ := mem_occurrences_iff.mp hm
      rwa [h.tests_eq_nil hn hs] at hm
    rw [if_neg hc, GuardIndex.getElem?_ofOccurrences, if_pos]
    · simp
    · by_cases hg : GuardIndex.guardsOf value (occurrences spec.items) = []
      · exact .inr hg
      · exact .inl (hu hg)

theorem WellFormed.mem_guardIndex_iff_places {spec : Spec α} (h : spec.WellFormed) (value : α) :
    value ∈ spec.guardIndex ↔
      Occurs spec.items (.term value) ∧
        ∀ address tests, StandsAt spec.items address tests (.term value) → tests ≠ [] := by
  have hu : (value, []) ∉ occurrences spec.items ↔
      ∀ address tests, StandsAt spec.items address tests (.term value) → tests ≠ [] := by
    rw [mem_occurrences_iff]
    constructor
    · rintro hn address _ hs rfl
      exact hn ⟨address, hs⟩
    · rintro hn ⟨address, hs⟩
      exact hn address [] hs rfl
  rw [mem_guardIndex_iff, mem_terms_iff_occurs, hu]
  constructor
  · rintro ⟨-, hn, ho⟩
    exact ⟨ho, hn⟩
  · rintro ⟨⟨address, tests, hs⟩, hn⟩
    have hc : spec.conditional ≠ false := fun hc => hn address tests hs (h.tests_eq_nil hc hs)
    exact ⟨by simpa using hc, hn, address, tests, hs⟩

theorem WellFormed.exists_places {spec : Spec α} {value : α} {guards : List Guard}
    (h : spec.guardIndex[value]? = some guards) :
    ∃ places : List (Place α),
      places.Pairwise (fun p q => p.address < q.address) ∧
        (∀ place, place ∈ places ↔
          place.value = value ∧ StandsAt spec.items place.address place.tests (.term place.value)) ∧
        guards = places.map fun place => .ofTests place.tests := by
  obtain ⟨-, -, -, rfl⟩ := getElem?_guardIndex_eq_some_iff.mp h
  refine ⟨(placesFrom 0 spec.items).filter fun place => place.value == value, ?_,
    fun place => ?_, guardsOf_occurrences value spec.items⟩
  · exact (pairwise_placesFrom 0 spec.items).filter _
  · rw [List.mem_filter, mem_places_iff, beq_iff_eq, and_comm]

/-- A term is in the index if it stands somewhere and has a conditional around it wherever it
stands. It is there with one guard for each of its places, in the order of these, made of the tests
on the way to it. Without the mark that no conditional occurs the index would be the same. -/
theorem guardIndex_eq_guards_of_places (spec : Spec α) (hw : spec.WellFormed) (value : α) :
    (value ∈ spec.guardIndex ↔
        Occurs spec.items (.term value) ∧
          ∀ address tests, StandsAt spec.items address tests (.term value) → tests ≠ []) ∧
      (∀ guards, spec.guardIndex[value]? = some guards →
        ∃ places : List (Place α),
          places.Pairwise (fun p q => p.address < q.address) ∧
            (∀ place, place ∈ places ↔ place.value = value ∧
              StandsAt spec.items place.address place.tests (.term place.value)) ∧
            guards = places.map fun place => .ofTests place.tests) ∧
      (GuardIndex.ofOccurrences (occurrences spec.items))[value]? = spec.guardIndex[value]? ∧
      (spec.conditional = false →
        (GuardIndex.ofOccurrences (occurrences spec.items)).isEmpty = true) := by
  refine ⟨hw.mem_guardIndex_iff_places value, fun guards h => WellFormed.exists_places h,
    hw.getElem?_ofOccurrences value, fun hc => ?_⟩
  rw [Std.HashMap.isEmpty_iff_forall_not_mem]
  intro found hm
  rw [Std.HashMap.mem_iff_isSome_getElem?, hw.getElem?_ofOccurrences, guardIndex, hc] at hm
  simp at hm

end Spec

theorem repeatedSpec_wellFormed : repeatedSpec.WellFormed :=
  Spec.wellFormed_ofItems (by simp [WellFormedItems, Item.WellFormed])

theorem Spec.guardIndex_repeatedSpec_eq_guards_of_places :
    repeatedSpec.WellFormed ∧
      StandsAt repeatedSpec.items [0, 1, 0, 0] [⟨"y", true⟩, ⟨"x", false⟩] (.term "a") ∧
      StandsAt repeatedSpec.items [1] [] (.term "b") ∧
      repeatedSpec.guardIndex["a"]? =
        some [.test ⟨"x", false⟩, .all [.test ⟨"y", true⟩, .test ⟨"x", false⟩]] ∧
      "b" ∉ repeatedSpec.guardIndex := by
  have ho : occurrences repeatedSpec.items =
      [("a", [⟨"x", false⟩]), ("b", [⟨"x", false⟩]), ("a", [⟨"y", true⟩, ⟨"x", false⟩]),
        ("b", [])] := by
    rw [occurrences_eq_occurrencesUnder]
    rfl
  have hp : ⟨[0, 1, 0, 0], [⟨"y", true⟩, ⟨"x", false⟩], "a"⟩ ∈ placesFrom 0 repeatedSpec.items := by
    simp [repeatedSpec, ofItems, placesFrom, Item.places, Place.within, Place.below, Head.test?]
  have ha : StandsAt repeatedSpec.items [0, 1, 0, 0] [⟨"y", true⟩, ⟨"x", false⟩] (.term "a") :=
    mem_places_iff.mp hp
  have hb : StandsAt repeatedSpec.items [1] [] (.term "b") := .here rfl
  obtain ⟨-, -, hwalk, -⟩ :=
    guardIndex_eq_guards_of_places repeatedSpec repeatedSpec_wellFormed "a"
  obtain ⟨hmem, -, -, -⟩ :=
    guardIndex_eq_guards_of_places repeatedSpec repeatedSpec_wellFormed "b"
  refine ⟨repeatedSpec_wellFormed, ha, hb, ?_, fun hm => (hmem.mp hm).2 [1] [] hb rfl⟩
  rw [← hwalk, GuardIndex.getElem?_ofOccurrences, ho, if_neg (by decide)]
  rfl

end DepSpec
