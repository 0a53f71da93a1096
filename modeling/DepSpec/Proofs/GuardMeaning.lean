import DepSpec.Guard

/-! What a guard means. It holds if all its tests hold, at whatever depth they are, so only the
flags of its tests matter. A conjunction means the same whether or not it was shortened to its only
part. -/

namespace DepSpec

theorem FlagTest.holds_iff {test : FlagTest} {enabled : List String} :
    test.holds enabled = true ↔ (test.flag ∈ enabled ↔ test.negated = false) := by
  by_cases hf : test.flag ∈ enabled <;> cases hn : test.negated <;> simp [holds, hf, hn]

theorem sortedNames_singleton (name : String) : sortedNames [name] = [name] := by
  simp [sortedNames, withoutRepeats]

namespace Guard

/-- The test occurs in the guard, at whatever depth. -/
inductive HasTest (test : FlagTest) : Guard → Prop
  | here : HasTest test (.test test)
  | inside {part : Guard} {parts : List Guard} (hp : part ∈ parts) (h : HasTest test part) :
      HasTest test (.all parts)

theorem hasTest_test_iff {s t : FlagTest} : HasTest t (.test s) ↔ t = s := by
  constructor
  · rintro ⟨⟩
    rfl
  · rintro rfl
    exact .here

theorem hasTest_all_iff {test : FlagTest} {parts : List Guard} :
    HasTest test (.all parts) ↔ ∃ part ∈ parts, HasTest test part := by
  constructor
  · rintro (_ | ⟨hp, h⟩)
    exact ⟨_, hp, h⟩
  · rintro ⟨part, hp, h⟩
    exact .inside hp h

mutual

theorem mem_tests_iff {test : FlagTest} (guard : Guard) :
    test ∈ guard.tests ↔ HasTest test guard := by
  match guard with
  | .test t => rw [tests, List.mem_singleton, hasTest_test_iff]
  | .all parts => rw [tests, mem_testsOfParts_iff parts, hasTest_all_iff]

theorem mem_testsOfParts_iff {test : FlagTest} (parts : List Guard) :
    test ∈ testsOfParts parts ↔ ∃ part ∈ parts, HasTest test part := by
  match parts with
  | [] => simp [testsOfParts]
  | part :: parts =>
    simp [testsOfParts, mem_tests_iff part, mem_testsOfParts_iff parts]

end

mutual

theorem holds_eq_all_tests (enabled : List String) (guard : Guard) :
    guard.holds enabled = guard.tests.all fun test => test.holds enabled := by
  match guard with
  | .test t => simp [holds, tests]
  | .all parts => rw [holds, tests, allHold_eq_all_tests enabled parts]

theorem allHold_eq_all_tests (enabled : List String) (parts : List Guard) :
    allHold enabled parts = (testsOfParts parts).all fun test => test.holds enabled := by
  match parts with
  | [] => rfl
  | part :: parts =>
    rw [allHold, testsOfParts, List.all_append, holds_eq_all_tests enabled part,
      allHold_eq_all_tests enabled parts]

end

mutual

theorem tests_of_singleTest? {test : FlagTest} (guard : Guard)
    (h : guard.singleTest? = some test) : guard.tests = [test] := by
  match guard with
  | .test t =>
    obtain rfl : t = test := by simpa [singleTest?] using h
    rfl
  | .all parts => exact testsOfParts_of_singleTestOfParts? parts h

theorem testsOfParts_of_singleTestOfParts? {test : FlagTest} (parts : List Guard)
    (h : singleTestOfParts? parts = some test) : testsOfParts parts = [test] := by
  match parts with
  | [] => cases h
  | [part] => rw [testsOfParts, testsOfParts, List.append_nil, tests_of_singleTest? part h]
  | _ :: _ :: _ => cases h

end

theorem holds_iff_forall_hasTest {enabled : List String} {guard : Guard} :
    guard.holds enabled = true ↔
      ∀ test, HasTest test guard → (test.flag ∈ enabled ↔ test.negated = false) := by
  rw [holds_eq_all_tests, List.all_eq_true]
  simp only [mem_tests_iff, FlagTest.holds_iff]

theorem mem_names_iff {name : String} {guard : Guard} :
    name ∈ guard.names ↔ ∃ test, HasTest test guard ∧ test.flag = name := by
  simp only [names, mem_sortedNames, List.mem_map, mem_tests_iff]

theorem holds_congr {enabled other : List String} {guard : Guard}
    (h : ∀ name ∈ guard.names, name ∈ enabled ↔ name ∈ other) :
    guard.holds enabled = guard.holds other := by
  rw [Bool.eq_iff_iff, holds_iff_forall_hasTest, holds_iff_forall_hasTest]
  refine forall_congr' fun test => forall_congr' fun ht => ?_
  rw [h test.flag (mem_names_iff.mpr ⟨test, ht, rfl⟩)]

theorem tests_conjunction (parts : List Guard) :
    (conjunction parts).tests = testsOfParts parts := by
  match parts with
  | [] => rfl
  | [part] => rw [conjunction, testsOfParts, testsOfParts, List.append_nil]
  | _ :: _ :: _ => rfl

theorem testsOfParts_map_test (tests : List FlagTest) : testsOfParts (tests.map test) = tests := by
  induction tests with
  | nil => rfl
  | cons t tests ih => simp [testsOfParts, Guard.tests, ih]

theorem mem_names_conjunction {name : String} {parts : List Guard} :
    name ∈ (conjunction parts).names ↔ ∃ part ∈ parts, name ∈ part.names := by
  simp only [mem_names_iff, ← mem_tests_iff (conjunction parts), tests_conjunction,
    mem_testsOfParts_iff]
  constructor
  · rintro ⟨test, ⟨part, hp, ht⟩, hn⟩
    exact ⟨part, hp, test, ht, hn⟩
  · rintro ⟨part, hp, test, ht, hn⟩
    exact ⟨test, ⟨part, hp, ht⟩, hn⟩

theorem names_of_singleTest? {test : FlagTest} {guard : Guard} (h : guard.singleTest? = some test) :
    guard.names = [test.flag] := by
  rw [names, tests_of_singleTest? guard h, List.map_singleton, sortedNames_singleton]

theorem holds_of_singleTest? {test : FlagTest} {guard : Guard} (h : guard.singleTest? = some test)
    (enabled : List String) : guard.holds enabled = test.holds enabled := by
  rw [holds_eq_all_tests, tests_of_singleTest? guard h, List.all_cons, List.all_nil, Bool.and_true]

/-- A guard holds if all its tests hold, however they are nested, and its names are their flags.
Other flags do not matter. A conjunction holds if its parts hold and has their names, and a guard
with a single test means the same as this test. -/
theorem holds_and_names_of_tests :
    (∀ guard : Guard,
      (∀ enabled, guard.holds enabled = true ↔
        ∀ test, HasTest test guard → (test.flag ∈ enabled ↔ test.negated = false)) ∧
      (∀ name, name ∈ guard.names ↔ ∃ test, HasTest test guard ∧ test.flag = name) ∧
      guard.names.Pairwise (· < ·) ∧
      (∀ enabled other, (∀ name ∈ guard.names, name ∈ enabled ↔ name ∈ other) →
        guard.holds enabled = guard.holds other) ∧
      ∀ test, guard.singleTest? = some test → guard.names = [test.flag] ∧
        ∀ enabled, guard.holds enabled = true ↔ (test.flag ∈ enabled ↔ test.negated = false)) ∧
    ∀ parts : List Guard,
      (∀ enabled, (conjunction parts).holds enabled = true ↔
        ∀ part ∈ parts, part.holds enabled = true) ∧
      ∀ name, name ∈ (conjunction parts).names ↔ ∃ part ∈ parts, name ∈ part.names := by
  refine ⟨fun guard => ⟨fun enabled => holds_iff_forall_hasTest, fun name => mem_names_iff,
    pairwise_sortedNames _, fun enabled other => holds_congr, fun test h => ?_⟩,
    fun parts => ⟨fun enabled => ?_, fun name => mem_names_conjunction⟩⟩
  · refine ⟨names_of_singleTest? h, fun enabled => ?_⟩
    rw [holds_of_singleTest? h, FlagTest.holds_iff]
  · rw [holds_conjunction, List.all_eq_true]

/-- Nested in conjunctions of one part, a test is still the single test; an empty conjunction adds
nothing to it. -/
theorem holds_and_names_of_nested_test :
    let absent : FlagTest := ⟨"x", true⟩
    let nested : Guard := .all [.all [.test absent]]
    let both : Guard := conjunction [nested, .all []]
    HasTest absent nested ∧ nested.singleTest? = some absent ∧ nested.names = ["x"] ∧
      nested.holds ["y"] = true ∧ nested.holds ["y"] = nested.holds ["z", "z"] ∧
      both.holds ["y"] = true ∧ both.holds ["x"] = false ∧ both.singleTest? = none := by
  intro absent nested both
  have ht : HasTest absent nested :=
    .inside (List.mem_singleton.mpr rfl) (.inside (List.mem_singleton.mpr rfl) .here)
  obtain ⟨hguard, hparts⟩ := holds_and_names_of_tests
  obtain ⟨hholds, -, -, hagree, hsingle⟩ := hguard nested
  obtain ⟨hn, hm⟩ := hsingle absent rfl
  have hx : ∀ name ∈ nested.names, name = "x" := by simp [hn, absent]
  have hy : nested.holds ["y"] = true := (hm ["y"]).mpr (by simp [absent])
  have hyz : nested.holds ["y"] = nested.holds ["z", "z"] := by
    refine hagree _ _ fun name hname => ?_
    rw [hx name hname]
    decide
  have hnot : nested.holds ["x"] = false := by
    rw [Bool.eq_false_iff, Ne, hholds]
    intro h
    simpa [absent] using h absent ht
  refine ⟨ht, rfl, hn, hy, hyz, ?_, ?_, rfl⟩
  · refine ((hparts [nested, .all []]).1 ["y"]).mpr fun part hp => ?_
    obtain rfl | rfl : part = nested ∨ part = .all [] := by simpa using hp
    · exact hy
    · rfl
  · rw [Bool.eq_false_iff, Ne, (hparts [nested, .all []]).1 ["x"]]
    intro h
    simpa [hnot] using h nested List.mem_cons_self

end Guard

end DepSpec
