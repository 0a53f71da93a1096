import DepSpec.Contents
import DepSpec.Token
import DepSpec.Words

/-! Which words are read as terms and which as tests of flags, and which specifications are legible:
their terms and flags are read as what they are when they stand among the words of a text. -/

namespace DepSpec

/-- No parenthesis or bar, and no question mark at the end. -/
def IsTermWord (word : String) : Prop :=
  (∀ c ∈ word.toList, c ∉ ['(', ')', '|']) ∧ word.toList.getLast? ≠ some '?'

/-- Not empty, and no exclamation mark in front. -/
def IsFlagName (name : String) : Prop :=
  name ≠ "" ∧ name.toList.head? ≠ some '!'

/-- A flag after at most one exclamation mark, and a question mark. -/
def IsFlagWord (word : String) (test : FlagTest) : Prop :=
  word = test.text ++ "?" ∧ IsFlagName test.flag

structure Spec.Legible {α : Type} (text : α → String) (spec : Spec α) : Prop where
  terms : ∀ value ∈ termsOfItems spec.items, IsWord (text value) ∧ IsTermWord (text value)
  flags : ∀ test ∈ testsOfItems spec.items, IsWord test.flag ∧ IsFlagName test.flag

theorem isFlagName_toList {name : String} : isFlagName name.toList = true ↔ IsFlagName name := by
  unfold IsFlagName
  cases h : name.toList with
  | nil => simp_all [isFlagName]
  | cons c cs =>
    have hne : name ≠ "" := fun he => by simp [he] at h
    simp [isFlagName, hne]

theorem isFlagName_iff {name : List Char} :
    isFlagName name = true ↔ IsFlagName (String.ofList name) := by
  rw [← isFlagName_toList, String.toList_ofList]

theorem FlagTest.ofToken?_eq_some_iff {token : String} {test : FlagTest} :
    ofToken? token = some test ↔ token = test.text ∧ IsFlagName test.flag := by
  obtain ⟨flag, negated⟩ := test
  unfold ofToken?
  split
  · rename_i name he
    have ht : token = "!" ++ String.ofList name := by
      rw [← String.toList_inj]
      simp [he]
    constructor
    · intro h
      split at h
      · rename_i hn
        simp only [Option.some.injEq, FlagTest.mk.injEq] at h
        obtain ⟨rfl, rfl⟩ := h
        exact ⟨ht, isFlagName_iff.mp hn⟩
      · simp at h
    · rintro ⟨htext, hn⟩
      cases negated with
      | true =>
        have hf : name = flag.toList := by
          have := congrArg String.toList htext
          simpa [text, he] using this
        subst hf
        simp [isFlagName_toList, hn]
      | false =>
        simp only [text, Bool.false_eq_true, ↓reduceIte] at htext
        exact absurd (by rw [← htext, he]; rfl) hn.2
  · rename_i hx
    constructor
    · intro h
      split at h
      · rename_i hn
        simp only [String.ofList_toList, Option.some.injEq, FlagTest.mk.injEq] at h
        obtain ⟨rfl, rfl⟩ := h
        exact ⟨by simp [text], isFlagName_toList.mp hn⟩
      · simp at h
    · rintro ⟨htext, hn⟩
      cases negated with
      | true => exact absurd (by simp [htext, text]) (hx flag.toList)
      | false =>
        obtain rfl : token = flag := by simpa [text] using htext
        simp [isFlagName_toList, hn]

namespace Token

theorem flagPart?_eq_some_iff {token name : String} :
    flagPart? token = some name ↔ token = name ++ "?" := by
  rw [← String.toList_inj, String.toList_append]
  unfold flagPart?
  split
  · rename_i rest he
    have ht : token.toList = rest.reverse ++ ['?'] := by
      rw [← List.reverse_inj]
      simpa using he
    rw [ht, Option.some.injEq, ← String.toList_inj]
    simp
  · rename_i hx
    simp only [reduceCtorEq, false_iff]
    intro h
    exact hx name.toList.reverse (by simp [h])

theorem flagPart?_eq_none_iff {token : String} :
    flagPart? token = none ↔ token.toList.getLast? ≠ some '?' := by
  rw [← List.head?_reverse]
  unfold flagPart?
  split
  · rename_i rest he
    simp [he]
  · rename_i hx
    simp only [true_iff]
    intro h
    obtain ⟨rest, hr⟩ := List.head?_eq_some_iff.mp h
    exact hx rest hr

theorem isReserved_eq_false_iff {c : Char} : isReserved c = false ↔ c ∉ ['(', ')', '|'] := by
  simp [isReserved, and_assoc]

theorem ofString_eq_term_iff {token : String} : ofString token = .term ↔ IsTermWord token := by
  unfold ofString IsTermWord
  split
  · subst_vars
    simp
  · split
    · subst_vars
      simp
    · split
      · subst_vars
        simp
      · split
        · rename_i name hf
          have hq : token.toList.getLast? = some '?' := by
            rw [flagPart?_eq_some_iff.mp hf]
            simp
          simp [hq]
        · rename_i hf
          simp only [← isReserved_eq_false_iff, flagPart?_eq_none_iff.mp hf, ne_eq,
            not_false_eq_true, and_true]
          split
          · rename_i ha
            obtain ⟨c, hc, hr⟩ := List.any_eq_true.mp ha
            simp only [reduceCtorEq, false_iff]
            exact fun h => by simp [h c hc] at hr
          · rename_i ha
            simpa using ha

theorem ofString_eq_flag_iff {token : String} {test : FlagTest} :
    ofString token = .flag (some test) ↔ IsFlagWord token test := by
  unfold ofString IsFlagWord
  have hlast : ∀ s : String, (s ++ "?").toList.getLast? = some '?' := fun s => by simp
  split
  · subst_vars
    simp only [reduceCtorEq, false_iff]
    exact fun h => by simpa using (congrArg (fun s => s.toList.getLast?) h.1).trans (hlast _)
  · split
    · subst_vars
      simp only [reduceCtorEq, false_iff]
      exact fun h => by simpa using (congrArg (fun s => s.toList.getLast?) h.1).trans (hlast _)
    · split
      · subst_vars
        simp only [reduceCtorEq, false_iff]
        exact fun h => by simpa using (congrArg (fun s => s.toList.getLast?) h.1).trans (hlast _)
      · split
        · rename_i name hf
          have hn := flagPart?_eq_some_iff.mp hf
          simp only [flag.injEq, FlagTest.ofToken?_eq_some_iff, hn]
          rw [← @String.toList_inj name, ← @String.toList_inj (name ++ "?")]
          simp
        · rename_i hf
          have hq := flagPart?_eq_none_iff.mp hf
          have hne : ¬ (token = test.text ++ "?" ∧ IsFlagName test.flag) :=
            fun h => hq (by rw [h.1]; exact hlast _)
          split <;> simp [hne]

end Token

end DepSpec
