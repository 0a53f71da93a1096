import DepSpec.Legible
import DepSpec.Proofs.GuardMeaning

/-! Guards made of tokens. A token is a flag after at most one exclamation mark, and the conjunction
of some tokens is written as these with spaces between them. So the words of its text are the tokens
again, and no other tokens make the same guard. -/

namespace DepSpec

/-- A flag after at most one exclamation mark. -/
def IsFlagToken (token : String) : Prop :=
  ∃ name, (token = name ∨ token = "!" ++ name) ∧ IsFlagName name

theorem isFlagToken_iff {token : String} :
    IsFlagToken token ↔ ∃ test : FlagTest, token = test.text ∧ IsFlagName test.flag := by
  constructor
  · rintro ⟨name, ht, hn⟩
    rcases ht with rfl | rfl
    · exact ⟨⟨token, false⟩, rfl, hn⟩
    · exact ⟨⟨name, true⟩, rfl, hn⟩
  · rintro ⟨⟨name, negated⟩, rfl, hn⟩
    cases negated with
    | false => exact ⟨name, .inl rfl, hn⟩
    | true => exact ⟨name, .inr rfl, hn⟩

theorem IsFlagToken.isWord {token : String} (h : IsFlagToken token)
    (hb : ∀ c ∈ token.toList, isBlank c = false) : IsWord token := by
  refine ⟨?_, hb⟩
  obtain ⟨name, rfl | rfl, hn⟩ := h
  · exact hn.1
  · simp

theorem exists_tests_of_isFlagToken {tokens : List String}
    (h : ∀ token ∈ tokens, IsFlagToken token) :
    ∃ tests : List FlagTest, tokens = tests.map FlagTest.text ∧
      ∀ test ∈ tests, IsFlagName test.flag := by
  induction tokens with
  | nil => exact ⟨[], rfl, by simp⟩
  | cons token tokens ih =>
    obtain ⟨ht, hr⟩ := List.forall_mem_cons.mp h
    obtain ⟨test, rfl, hn⟩ := isFlagToken_iff.mp ht
    obtain ⟨tests, rfl, hns⟩ := ih hr
    exact ⟨test :: tests, rfl, List.forall_mem_cons.mpr ⟨hn, hns⟩⟩

namespace Guard

theorem ofToken_text {test : FlagTest} (h : IsFlagName test.flag) :
    ofToken test.text = .ok (.test test) := by
  rw [ofToken, FlagTest.ofToken?_eq_some_iff.mpr ⟨rfl, h⟩]

theorem ofToken_of_not_isFlagToken {token : String} (h : ¬ IsFlagToken token) :
    ofToken token = .error .malformedToken := by
  have hn : FlagTest.ofToken? token = none := by
    refine Option.eq_none_iff_forall_ne_some.mpr fun test ht => h ?_
    exact isFlagToken_iff.mpr ⟨test, FlagTest.ofToken?_eq_some_iff.mp ht⟩
  rw [ofToken, hn]

theorem mapM_ofToken_map_text {tests : List FlagTest} (h : ∀ test ∈ tests, IsFlagName test.flag) :
    (tests.map FlagTest.text).mapM ofToken = .ok (tests.map .test) := by
  induction tests with
  | nil => rfl
  | cons test tests ih =>
    obtain ⟨ht, hr⟩ := List.forall_mem_cons.mp h
    rw [List.map_cons, List.mapM_cons, ofToken_text ht, ih hr]
    rfl

/-- The first token that is no flag is the fault, whatever comes after it. -/
theorem mapM_ofToken_of_not_isFlagToken {tokens : List String}
    (h : ∃ token ∈ tokens, ¬ IsFlagToken token) :
    tokens.mapM ofToken = .error .malformedToken := by
  induction tokens with
  | nil => simp at h
  | cons token tokens ih =>
    rw [List.mapM_cons]
    by_cases ht : IsFlagToken token
    · obtain ⟨test, rfl, hn⟩ := isFlagToken_iff.mp ht
      rw [ofToken_text hn, ih (by simpa [ht] using h)]
      rfl
    · rw [ofToken_of_not_isFlagToken ht]
      rfl

theorem ofTokens_map_text {tests : List FlagTest} (hne : tests ≠ [])
    (h : ∀ test ∈ tests, IsFlagName test.flag) :
    ofTokens (tests.map FlagTest.text) = .ok (conjunction (tests.map .test)) := by
  have he : (tests.map Guard.test).isEmpty = false := by simpa using hne
  rw [ofTokens, mapM_ofToken_map_text h]
  exact if_neg (by simp [he])

theorem ofTokens_of_not_isFlagToken {tokens : List String}
    (h : ∃ token ∈ tokens, ¬ IsFlagToken token) :
    ofTokens tokens = .error .malformedToken := by
  rw [ofTokens, mapM_ofToken_of_not_isFlagToken h]
  rfl

theorem ofTokens_cases (tokens : List String) :
    tokens = [] ∨ (∃ token ∈ tokens, ¬ IsFlagToken token) ∨
      ∃ tests : List FlagTest, tests ≠ [] ∧ (∀ test ∈ tests, IsFlagName test.flag) ∧
        tokens = tests.map FlagTest.text := by
  by_cases hf : ∀ token ∈ tokens, IsFlagToken token
  · obtain ⟨tests, rfl, hn⟩ := exists_tests_of_isFlagToken hf
    by_cases hne : tests = []
    · exact .inl (by rw [hne, List.map_nil])
    · exact .inr (.inr ⟨tests, hne, hn, rfl⟩)
  · exact .inr (.inl (by simpa using hf))

theorem ofTokens_eq_ok_iff {tokens : List String} {guard : Guard} :
    ofTokens tokens = .ok guard ↔
      ∃ tests : List FlagTest, tests ≠ [] ∧ (∀ test ∈ tests, IsFlagName test.flag) ∧
        tokens = tests.map FlagTest.text ∧ guard = conjunction (tests.map .test) := by
  constructor
  · intro h
    rcases ofTokens_cases tokens with rfl | hm | ⟨tests, hne, hn, rfl⟩
    · cases h
    · rw [ofTokens_of_not_isFlagToken hm] at h
      cases h
    · rw [ofTokens_map_text hne hn] at h
      exact ⟨tests, hne, hn, rfl, (Except.ok.inj h).symm⟩
  · rintro ⟨tests, hne, hn, rfl, rfl⟩
    exact ofTokens_map_text hne hn

theorem texts_eq_map (parts : List Guard) : texts parts = parts.map text := by
  induction parts with
  | nil => rfl
  | cons part parts ih => rw [texts, ih, List.map_cons]

theorem text_conjunction (parts : List Guard) :
    (conjunction parts).text = " ".intercalate (parts.map text) := by
  match parts with
  | [] => rfl
  | [part] => simp [conjunction]
  | part :: other :: parts => simp [conjunction, text, texts_eq_map]

theorem tests_conjunction_map_test (tests : List FlagTest) :
    (conjunction (tests.map test)).tests = tests := by
  rw [tests_conjunction, testsOfParts_map_test]

variable {tokens : List String} {guard : Guard}

theorem exists_ofTokens_eq_ok_iff :
    (∃ guard, ofTokens tokens = .ok guard) ↔
      tokens ≠ [] ∧ ∀ token ∈ tokens, IsFlagToken token := by
  constructor
  · rintro ⟨guard, h⟩
    obtain ⟨tests, hne, hn, rfl, -⟩ := ofTokens_eq_ok_iff.mp h
    refine ⟨by simpa using hne, fun token ht => ?_⟩
    obtain ⟨test, hm, rfl⟩ := List.mem_map.mp ht
    exact isFlagToken_iff.mpr ⟨test, rfl, hn test hm⟩
  · rintro ⟨hne, hf⟩
    obtain ⟨tests, rfl, hn⟩ := exists_tests_of_isFlagToken hf
    exact ⟨_, ofTokens_map_text (by simpa using hne) hn⟩

theorem ofTokens_eq_emptyGuard_iff : ofTokens tokens = .error .emptyGuard ↔ tokens = [] := by
  constructor
  · intro h
    rcases ofTokens_cases tokens with he | hm | ⟨tests, hne, hn, rfl⟩
    · exact he
    · rw [ofTokens_of_not_isFlagToken hm] at h
      cases h
    · rw [ofTokens_map_text hne hn] at h
      cases h
  · rintro rfl
    rfl

theorem ofTokens_eq_malformedToken_iff :
    ofTokens tokens = .error .malformedToken ↔ ∃ token ∈ tokens, ¬ IsFlagToken token := by
  constructor
  · intro h
    rcases ofTokens_cases tokens with rfl | hm | ⟨tests, hne, hn, rfl⟩
    · cases h
    · exact hm
    · rw [ofTokens_map_text hne hn] at h
      cases h
  · exact ofTokens_of_not_isFlagToken

theorem map_text_tests_of_ofTokens (h : ofTokens tokens = .ok guard) :
    guard.tests.map FlagTest.text = tokens := by
  obtain ⟨tests, -, -, rfl, rfl⟩ := ofTokens_eq_ok_iff.mp h
  rw [tests_conjunction_map_test]

theorem eq_conjunction_of_ofTokens (h : ofTokens tokens = .ok guard) :
    guard = conjunction (guard.tests.map .test) := by
  obtain ⟨tests, -, -, -, rfl⟩ := ofTokens_eq_ok_iff.mp h
  rw [tests_conjunction_map_test]

theorem text_of_ofTokens (h : ofTokens tokens = .ok guard) :
    guard.text = " ".intercalate tokens := by
  obtain ⟨tests, -, -, rfl, rfl⟩ := ofTokens_eq_ok_iff.mp h
  rw [text_conjunction, List.map_map]
  rfl

theorem words_text_of_ofTokens (h : ofTokens tokens = .ok guard)
    (hb : ∀ token ∈ tokens, ∀ c ∈ token.toList, isBlank c = false) : words guard.text = tokens := by
  obtain ⟨-, hf⟩ := exists_ofTokens_eq_ok_iff.mp ⟨guard, h⟩
  have hw : ∀ token ∈ tokens, IsWord token := fun token ht => (hf token ht).isWord (hb token ht)
  rw [text_of_ofTokens h, ← spaced_eq_intercalate fun token ht => (hw token ht).1, words_spaced hw]

/-- Tokens make a guard if there are any and all of them are flags after at most one exclamation
mark; otherwise there are none, or one is malformed. The guard is the conjunction of its tests and
its text the tokens with spaces between them. Its words make the guard again, and no other tokens
make it. -/
theorem ofTokens_words_text (tokens : List String) :
    ((∃ guard, ofTokens tokens = .ok guard) ↔
      tokens ≠ [] ∧ ∀ token ∈ tokens, IsFlagToken token) ∧
    (ofTokens tokens = .error .emptyGuard ↔ tokens = []) ∧
    (ofTokens tokens = .error .malformedToken ↔ ∃ token ∈ tokens, ¬ IsFlagToken token) ∧
    ∀ guard, ofTokens tokens = .ok guard →
      guard = conjunction (guard.tests.map .test) ∧
      guard.tests.map FlagTest.text = tokens ∧
      guard.text = " ".intercalate tokens ∧
      ((∀ token ∈ tokens, ∀ c ∈ token.toList, isBlank c = false) →
        ofTokens (words guard.text) = .ok guard) ∧
      ∀ others, ofTokens others = .ok guard ↔ others = tokens := by
  refine ⟨exists_ofTokens_eq_ok_iff, ofTokens_eq_emptyGuard_iff, ofTokens_eq_malformedToken_iff,
    fun guard h => ⟨eq_conjunction_of_ofTokens h, map_text_tests_of_ofTokens h, text_of_ofTokens h,
      fun hb => ?_, fun others => ⟨fun ho => ?_, fun he => ?_⟩⟩⟩
  · rw [words_text_of_ofTokens h hb, h]
  · rw [← map_text_tests_of_ofTokens ho, map_text_tests_of_ofTokens h]
  · rw [he, h]

/-- Exclamation and question marks further on belong to the flag. -/
theorem ofTokens_words_text_marked :
    let tokens := ["!a!b?", "x?!"]
    let guard : Guard := .all [.test ⟨"a!b?", true⟩, .test ⟨"x?!", false⟩]
    ofTokens tokens = .ok guard ∧ (∀ token ∈ tokens, ∀ c ∈ token.toList, isBlank c = false) ∧
      guard.text = "!a!b? x?!" ∧ ofTokens (words guard.text) = .ok guard ∧
      ofTokens ["x?!", "!a!b?"] ≠ .ok guard ∧
      ofTokens ["x?!", "!!a"] = .error .malformedToken := by
  intro tokens guard
  have hg : ofTokens tokens = .ok guard := rfl
  have hb : ∀ token ∈ tokens, ∀ c ∈ token.toList, isBlank c = false := by
    simp [tokens, isBlank]
  obtain ⟨-, -, -, hok⟩ := ofTokens_words_text tokens
  obtain ⟨-, -, ht, hw, ho⟩ := hok guard hg
  obtain ⟨-, -, hmalformed, -⟩ := ofTokens_words_text ["x?!", "!!a"]
  refine ⟨hg, hb, ht.trans rfl, hw hb, fun h => ?_, hmalformed.mpr ⟨"!!a", by simp, ?_⟩⟩
  · exact absurd ((ho _).mp h) (by simp [tokens])
  · rintro ⟨name, rfl | he, hn⟩
    · exact hn.2 rfl
    · have hl : name.toList = ['!', 'a'] := by simpa using (congrArg String.toList he).symm
      exact hn.2 (by rw [hl]; rfl)

end Guard

end DepSpec
