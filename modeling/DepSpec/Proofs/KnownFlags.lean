import DepSpec.Proofs.FlagDependence
import DepSpec.Proofs.GuardMeaning
import DepSpec.Proofs.IndexedPlaces

/-! The flags of a specification are those of the conditionals that stand in it. The guards of the
index test no others. They test all of them if no term stands both with a conditional around it and
without one, since every conditional has a term in it. -/

namespace DepSpec

variable {α : Type}

theorem Item.occurs_of_mem_tests {test : FlagTest} {items : List (Item α)} (item : Item α)
    (hi : item ∈ items) (ht : test ∈ item.tests) :
    ∃ members, Occurs items (.group (.when test) members) := by
  match item with
  | .term value => simp [Item.tests] at ht
  | .group head members =>
    rw [Item.tests] at ht
    rcases List.mem_append.mp ht with hh | hm
    · cases head with
      | allOf => simp [Head.test?] at hh
      | anyOf => simp [Head.test?] at hh
      | when found =>
        obtain rfl : test = found := by simpa [Head.test?] using hh
        exact ⟨members, .of_mem hi⟩
    · obtain ⟨member, hr, hrt⟩ := mem_testsOfItems.mp hm
      obtain ⟨inner, ho⟩ := occurs_of_mem_tests member hr hrt
      exact ⟨inner, ho.inside hi⟩
termination_by sizeOf item
decreasing_by
  have hs := List.sizeOf_lt_of_mem hr
  simp only [Item.group.sizeOf_spec]
  omega

theorem mem_testsOfItems_iff_occurs {test : FlagTest} {items : List (Item α)} :
    test ∈ testsOfItems items ↔ ∃ members, Occurs items (.group (.when test) members) := by
  constructor
  · intro h
    obtain ⟨item, hi, ht⟩ := mem_testsOfItems.mp h
    exact item.occurs_of_mem_tests hi ht
  · rintro ⟨members, ho⟩
    exact ho.tests_subset (by simp [Item.tests, Head.test?])

theorem WellFormedItems.exists_occurs_term {items : List (Item α)} (hw : WellFormedItems items)
    (hne : items ≠ []) : ∃ value, Occurs items (.term value) := by
  obtain ⟨value, hv⟩ := List.exists_mem_of_ne_nil _ (hw.terms_ne_nil items hne)
  have hm : value ∈ (Spec.ofItems items).terms := by rwa [Spec.terms_eq_termsOfItems]
  exact ⟨value, Spec.mem_terms_iff_occurs.mp hm⟩

/-- A conditional is around a term, as no group is empty. -/
theorem StandsAt.exists_term_under {items : List (Item α)} {address : List Nat}
    {tests : List FlagTest} {test : FlagTest} {members : List (Item α)}
    (h : StandsAt items address tests (.group (.when test) members))
    (hw : WellFormedItems items) :
    ∃ below guards value, StandsAt items below guards (.term value) ∧ test ∈ guards := by
  generalize hg : Item.group (.when test) members = found at h
  induction h with
  | here h =>
    subst hg
    have hi := wellFormedItems_iff.mp hw _ (List.mem_of_getElem? h)
    obtain ⟨value, below, guards, hs⟩ := hi.2.exists_occurs_term hi.1
    exact ⟨_, _, value, .inside h hs, by simp [Head.test?]⟩
  | inside h _ ih =>
    have hi := wellFormedItems_iff.mp hw _ (List.mem_of_getElem? h)
    obtain ⟨below, guards, value, hs, ht⟩ := ih hi.2 hg
    exact ⟨_, _, value, .inside h hs, List.mem_append_right _ ht⟩

namespace Guard

theorem tests_ofTests (tests : List FlagTest) : (ofTests tests).tests = tests := by
  match tests with
  | [] => rfl
  | [t] => rfl
  | t :: u :: tests => exact testsOfParts_map_test (t :: u :: tests)

theorem mem_names_ofTests {name : String} {tests : List FlagTest} :
    name ∈ (ofTests tests).names ↔ ∃ test ∈ tests, test.flag = name := by
  rw [names, mem_sortedNames, tests_ofTests, List.mem_map]

end Guard

namespace Spec

/-- A term that stands in a conditional stands nowhere outside of all conditionals. -/
def Separated (spec : Spec α) : Prop :=
  ∀ value address tests, StandsAt spec.items address tests (.term value) → tests ≠ [] →
    ∀ elsewhere, ¬ StandsAt spec.items elsewhere [] (.term value)

variable {spec : Spec α}

theorem WellFormed.mem_flags_iff (hw : spec.WellFormed) {flag : String} :
    flag ∈ spec.flags ↔ ∃ test ∈ testsOfItems spec.items, test.flag = flag := by
  rw [flags_eq]
  by_cases hc : spec.conditional = true
  · rw [if_pos hc, mem_sortedNames, List.mem_map]
  · have ht := hw.testsOfItems_eq_nil (by simpa using hc)
    rw [if_neg hc, ht]
    simp

theorem pairwise_flags (spec : Spec α) : spec.flags.Pairwise (· < ·) := by
  rw [flags]
  split
  · exact pairwise_sortedNames _
  · exact List.Pairwise.nil

variable [DecidableEq α] [Hashable α]

theorem mem_guards_iff {value : α} {guards : List Guard} {guard : Guard}
    (h : spec.guardIndex[value]? = some guards) :
    guard ∈ guards ↔
      ∃ address tests, StandsAt spec.items address tests (.term value) ∧
        .ofTests tests = guard := by
  obtain ⟨places, -, hp, rfl⟩ := WellFormed.exists_places h
  rw [List.mem_map]
  constructor
  · rintro ⟨place, hm, rfl⟩
    obtain ⟨rfl, hs⟩ := (hp place).mp hm
    exact ⟨place.address, place.tests, hs, rfl⟩
  · rintro ⟨address, tests, hs, rfl⟩
    exact ⟨⟨address, tests, value⟩, (hp _).mpr ⟨rfl, hs⟩, rfl⟩

theorem names_subset_flags {value : α} {guards : List Guard} {guard : Guard}
    (h : spec.guardIndex[value]? = some guards) (hg : guard ∈ guards) :
    guard.names ⊆ spec.flags := by
  obtain ⟨address, tests, hs, rfl⟩ := (mem_guards_iff h).mp hg
  have hc : spec.conditional = true := (getElem?_guardIndex_eq_some_iff.mp h).1
  intro name hn
  obtain ⟨test, ht, rfl⟩ := Guard.mem_names_ofTests.mp hn
  exact mem_flags_of_mem_testsOfItems hc (hs.tests_subset ht)

theorem WellFormed.exists_guard_of_mem_testsOfItems (hw : spec.WellFormed) (hs : spec.Separated)
    {test : FlagTest} (ht : test ∈ testsOfItems spec.items) :
    ∃ (value : α) (guards : List Guard), spec.guardIndex[value]? = some guards ∧
      ∃ guard ∈ guards, test.flag ∈ guard.names := by
  -- a term in the conditional of the test is in the index, where one of its guards has the test
  obtain ⟨members, address, tests, hc⟩ := mem_testsOfItems_iff_occurs.mp ht
  obtain ⟨below, around, value, hb, hm⟩ := hc.exists_term_under hw.1
  have hi : value ∈ spec.guardIndex := by
    rw [hw.mem_guardIndex_iff_places]
    refine ⟨⟨below, around, hb⟩, ?_⟩
    rintro elsewhere _ he rfl
    exact hs value below around hb (List.ne_nil_of_mem hm) elsewhere he
  have hg := Std.HashMap.getElem?_eq_some_getElem hi
  exact ⟨value, _, hg, .ofTests around, (mem_guards_iff hg).mpr ⟨below, around, hb, rfl⟩,
    Guard.mem_names_ofTests.mpr ⟨test, hm, rfl⟩⟩

/-- The flags are those of the conditionals that stand somewhere, each once and in order, whatever
the mark says. Guards of the index have no other names. If no term stands both in a conditional and
outside of all, they have all of them. -/
theorem flags_eq_names_of_guards (spec : Spec α) (hw : spec.WellFormed) :
    spec.flags.Pairwise (· < ·) ∧
      (∀ flag, flag ∈ spec.flags ↔
        ∃ negated members, Occurs spec.items (.group (.when ⟨flag, negated⟩) members)) ∧
      (∀ (value : α) (guards : List Guard), spec.guardIndex[value]? = some guards →
        ∀ guard ∈ guards, guard.names ⊆ spec.flags) ∧
      (spec.Separated → ∀ flag, flag ∈ spec.flags ↔
        ∃ (value : α) (guards : List Guard), spec.guardIndex[value]? = some guards ∧
          ∃ guard ∈ guards, flag ∈ guard.names) := by
  refine ⟨pairwise_flags spec, fun flag => ?_, fun value guards h guard => names_subset_flags h,
    fun hs flag => ?_⟩
  · rw [hw.mem_flags_iff]
    constructor
    · rintro ⟨test, ht, rfl⟩
      exact ⟨test.negated, mem_testsOfItems_iff_occurs.mp ht⟩
    · rintro ⟨negated, ho⟩
      exact ⟨⟨flag, negated⟩, mem_testsOfItems_iff_occurs.mpr ho, rfl⟩
  · constructor
    · intro hf
      obtain ⟨test, ht, rfl⟩ := hw.mem_flags_iff.mp hf
      exact hw.exists_guard_of_mem_testsOfItems hs ht
    · rintro ⟨value, guards, h, guard, hg, hf⟩
      exact names_subset_flags h hg hf

/-- Of the second specification the index leaves out the only term, and its flag with it. -/
theorem flags_eq_names_of_guards_guardedSpec :
    let mixed : Spec String := .ofItems [.group (.when ⟨"x", false⟩) [.term "a"], .term "a"]
    guardedSpec.WellFormed ∧ guardedSpec.Separated ∧
      (∃ (value : String) (guards : List Guard), guardedSpec.guardIndex[value]? = some guards ∧
        ∃ guard ∈ guards, "y" ∈ guard.names) ∧
      mixed.WellFormed ∧ "x" ∈ mixed.flags ∧ ∀ value : String, value ∉ mixed.guardIndex := by
  intro mixed
  have ho : occurrences guardedSpec.items = [("a", [⟨"x", false⟩]), ("b", [⟨"x", false⟩]),
      ("c", [⟨"y", true⟩, ⟨"x", true⟩]), ("d", [])] := by
    rw [occurrences_eq_occurrencesUnder]
    rfl
  have hs : guardedSpec.Separated := by
    intro value address tests hv ht elsewhere he
    have hm := mem_occurrences_iff.mpr ⟨address, hv⟩
    have hn := mem_occurrences_iff.mpr ⟨elsewhere, he⟩
    rw [ho] at hm hn
    obtain rfl : value = "d" := by simpa using hn
    exact ht (by simpa using hm)
  have hw : mixed.WellFormed := wellFormed_ofItems (by simp [WellFormedItems, Item.WellFormed])
  have hy : Occurs guardedSpec.items
      (.group (.when ⟨"y", true⟩) [.group (.when ⟨"x", true⟩) [.term "c"]]) :=
    .inside List.mem_cons_self (.of_mem (by simp))
  have hx : Occurs mixed.items (.group (.when ⟨"x", false⟩) [.term "a"]) :=
    .of_mem List.mem_cons_self
  obtain ⟨-, hf, -, hg⟩ := flags_eq_names_of_guards guardedSpec guardedSpec_wellFormed
  obtain ⟨-, hm, -, -⟩ := flags_eq_names_of_guards mixed hw
  refine ⟨guardedSpec_wellFormed, hs, (hg hs "y").mp ((hf "y").mpr ⟨_, _, hy⟩), hw,
    (hm "x").mpr ⟨_, _, hx⟩, fun value hi => ?_⟩
  obtain ⟨hv, hn⟩ := (hw.mem_guardIndex_iff_places value).mp hi
  have ht : mixed.terms = ["a", "a"] := terms_eq_termsOfItems _
  obtain rfl : value = "a" := by simpa [ht] using mem_terms_iff_occurs.mpr hv
  exact hn [1] [] (.here rfl) rfl

end Spec

end DepSpec
