import DepSpec.Proofs.JsonSkipping

/-! What a reader takes off the front of some lexemes. Readers of words, texts and lists of texts
take what their outcome is written with; other readers look no further than the value they take. -/

namespace DepSpec.Json

variable {σ τ : Type} {lexemes rest : List Lexeme}

namespace Reads

@[simp]
theorem bind_eq_ok_iff {read : Reads σ} {go : σ → Reads τ} {out : τ} :
    (read >>= go) lexemes = .ok (out, rest) ↔
      ∃ found after, read lexemes = .ok (found, after) ∧ go found after = .ok (out, rest) := by
  change (read lexemes >>= fun p => go p.1 p.2) = _ ↔ _
  rcases read lexemes with fault | ⟨found, after⟩
  · simp [bind, Except.bind]
  · constructor
    · intro h
      exact ⟨found, after, rfl, h⟩
    · rintro ⟨_, _, ⟨⟩, h⟩
      exact h

@[simp]
theorem pure_eq_ok_iff {value out : σ} :
    (pure value : Reads σ) lexemes = .ok (out, rest) ↔ value = out ∧ lexemes = rest := by
  change Except.ok (value, lexemes) = .ok (out, rest) ↔ _
  simp

@[simp]
theorem throw_ne_ok {fault : Fault} {out : σ} :
    (throw fault : Reads σ) lexemes ≠ .ok (out, rest) := by
  change Except.error fault ≠ .ok (out, rest)
  simp

@[simp]
theorem get_eq_ok_iff {found : List Lexeme} :
    (get : Reads (List Lexeme)) lexemes = .ok (found, rest) ↔ found = lexemes ∧ rest = lexemes := by
  change Except.ok (lexemes, lexemes) = .ok (found, rest) ↔ _
  simp [eq_comm]

end Reads

@[simp]
theorem next_eq_ok_iff {found : Lexeme} :
    next lexemes = .ok (found, rest) ↔ lexemes = found :: rest := by
  cases lexemes <;> simp [next]

@[simp]
theorem peek_eq_ok_iff {found : Lexeme} :
    peek lexemes = .ok (found, rest) ↔ rest = lexemes ∧ lexemes.head? = some found := by
  cases lexemes <;> simp [peek, eq_comm, and_comm]

/-- A reader that accepts one lexeme takes this lexeme. -/
theorem next_bind_eq_ok_iff {go : Lexeme → Reads σ} {wanted : Lexeme} {out : σ}
    (h : ∀ found after, go found after = .ok (out, rest) ↔ found = wanted ∧ after = rest) :
    (next >>= go) lexemes = .ok (out, rest) ↔ lexemes = wanted :: rest := by
  simp only [Reads.bind_eq_ok_iff, next_eq_ok_iff, h]
  constructor
  · rintro ⟨found, after, rfl, rfl, rfl⟩
    rfl
  · rintro rfl
    exact ⟨wanted, rest, rfl, rfl, rfl⟩

@[simp]
theorem readMark_eq_ok_iff {c : Char} {found : Unit} :
    readMark c lexemes = .ok (found, rest) ↔ lexemes = .mark c :: rest := by
  refine next_bind_eq_ok_iff fun first after => ?_
  by_cases hf : first = .mark c <;> simp [hf]

@[simp]
theorem readNull_eq_ok_iff {found : Unit} :
    readNull lexemes = .ok (found, rest) ↔ lexemes = .word .null :: rest := by
  refine next_bind_eq_ok_iff fun first after => ?_
  split <;> simp_all

@[simp]
theorem readText_eq_ok_iff {found : String} :
    readText lexemes = .ok (found, rest) ↔ lexemes = .text (some found) :: rest := by
  refine next_bind_eq_ok_iff fun first after => ?_
  split <;> simp_all

@[simp]
theorem readKey_eq_ok_iff {found : String} :
    readKey lexemes = .ok (found, rest) ↔ lexemes = .text (some found) :: rest := by
  refine next_bind_eq_ok_iff fun first after => ?_
  split <;> simp_all

/-- Reading takes exactly the lexemes with which a value is written. -/
def Inverts (read : Reads σ) (write : σ → Value) : Prop :=
  ∀ ⦃lexemes rest : List Lexeme⦄ ⦃found : σ⦄,
    read lexemes = .ok (found, rest) ↔ lexemes = (write found).lexemes ++ rest

namespace Value

def ofBool (value : Bool) : Value := .word (if value then .true else .false)

def ofTexts (texts : List String) : Value := .list (texts.map fun text => .text (some text))

def ofOption (write : σ → Value) : Option σ → Value
  | none => .word .null
  | some found => write found

end Value

theorem inverts_readBool : Inverts readBool .ofBool := by
  intro lexemes rest found
  rw [Value.ofBool, Value.lexemes, List.singleton_append]
  refine next_bind_eq_ok_iff fun first after => ?_
  split <;> cases found <;> simp_all

theorem moreTexts_eq_ok_iff {seen found : List String} :
    moreTexts seen lexemes = .ok (found, rest) ↔
      ∃ texts : List String, found = seen.reverse ++ texts ∧
        lexemes = laterEntries (texts.map fun text => .text (some text)) ++ .mark ']' :: rest := by
  fun_induction moreTexts seen lexemes with
  | case1 seen after =>
    constructor
    · intro h
      cases h
      exact ⟨[], by simp, rfl⟩
    · rintro ⟨texts, rfl, hl⟩
      cases texts with
      | nil => simp_all [laterEntries]
      | cons text texts => simp [laterEntries] at hl
  | case2 seen value after ih =>
    rw [ih]
    constructor
    · rintro ⟨texts, rfl, rfl⟩
      exact ⟨value :: texts, by simp, by simp [laterEntries, Value.lexemes]⟩
    · rintro ⟨texts, rfl, hl⟩
      cases texts with
      | nil => simp [laterEntries] at hl
      | cons text texts =>
        simp only [List.map_cons, laterEntries, Value.lexemes, List.cons_append, List.nil_append,
          List.cons.injEq, Lexeme.text.injEq, Option.some.injEq, true_and] at hl
        obtain ⟨rfl, rfl⟩ := hl
        exact ⟨texts, by simp, rfl⟩
  | case3 | case4 | case5 | case6 =>
    simp only [reduceCtorEq, false_iff, not_exists, not_and]
    intro texts _ hl
    cases texts <;> simp_all [laterEntries, Value.lexemes]

theorem inverts_readTexts : Inverts readTexts .ofTexts := by
  intro lexemes rest found
  simp only [readTexts, Reads.bind_eq_ok_iff, next_eq_ok_iff]
  constructor
  · rintro ⟨first, after, rfl, h⟩
    by_cases hf : first = .mark '['
    · rw [if_pos hf] at h
      obtain ⟨second, others, hp, hr⟩ := Reads.bind_eq_ok_iff.mp h
      obtain ⟨rfl, hs⟩ := peek_eq_ok_iff.mp hp
      by_cases hc : second = .mark ']'
      · simp only [hc, if_true, Reads.bind_eq_ok_iff, next_eq_ok_iff, Reads.pure_eq_ok_iff] at hr
        obtain ⟨_, _, rfl, rfl, rfl⟩ := hr
        simp_all [Value.ofTexts, lexemes_list_nil]
      · simp only [hc, if_false, Reads.bind_eq_ok_iff, readText_eq_ok_iff] at hr
        obtain ⟨text, later, rfl, hr⟩ := hr
        obtain ⟨texts, rfl, rfl⟩ := moreTexts_eq_ok_iff.mp hr
        simp [hf, Value.ofTexts, laterEntries, Value.lexemes]
    · simp [hf] at h
  · rintro rfl
    cases found with
    | nil => exact ⟨_, _, rfl, rfl⟩
    | cons text texts =>
      rw [Value.ofTexts, List.map_cons, lexemes_list_cons]
      refine ⟨_, _, rfl, ?_⟩
      rw [if_pos rfl, Reads.bind_eq_ok_iff]
      refine ⟨.text (some text), _, peek_eq_ok_iff.mpr ⟨rfl, rfl⟩, ?_⟩
      rw [if_neg (by simp), Reads.bind_eq_ok_iff]
      exact ⟨text, _, readText_eq_ok_iff.mpr rfl, moreTexts_eq_ok_iff.mpr ⟨texts, rfl, rfl⟩⟩

theorem Value.eq_of_head?_lexemes {value : Value} {word : Word}
    (h : value.lexemes.head? = some (.word word)) : value = .word word := by
  cases value <;> simp_all [Value.lexemes]

theorem Inverts.readOptional {read : Reads σ} {write : σ → Value} (h : Inverts read write)
    (hn : ∀ found, write found ≠ .word .null) : Inverts (readOptional read) (.ofOption write) := by
  intro lexemes rest found
  simp only [Json.readOptional, Reads.bind_eq_ok_iff, peek_eq_ok_iff]
  constructor
  · rintro ⟨first, after, ⟨rfl, -⟩, hr⟩
    by_cases hf : first = .word .null
    · simp only [hf, if_true, Reads.bind_eq_ok_iff, readNull_eq_ok_iff,
        Reads.pure_eq_ok_iff] at hr
      obtain ⟨_, _, rfl, rfl, rfl⟩ := hr
      rfl
    · simp only [hf, if_false, Reads.bind_eq_ok_iff, Reads.pure_eq_ok_iff] at hr
      obtain ⟨found, _, hr, rfl, rfl⟩ := hr
      exact h.mp hr
  · rintro rfl
    cases found with
    | none => exact ⟨.word .null, _, ⟨rfl, rfl⟩, rfl⟩
    | some found =>
      obtain ⟨first, others, hv, -⟩ := (write found).exists_lexemes_eq_cons
      have hf : first ≠ .word .null := fun he =>
        hn found (Value.eq_of_head?_lexemes (by rw [hv, he]; rfl))
      refine ⟨first, _, ⟨rfl, by simp [Value.ofOption, hv]⟩, ?_⟩
      rw [if_neg hf, Reads.bind_eq_ok_iff]
      exact ⟨found, rest, h.mpr rfl, by simp⟩

/-- Reading takes exactly the lexemes of one value, and has the same outcome on these alone. -/
def TakesValue (read : Reads σ) : Prop :=
  ∀ ⦃lexemes rest : List Lexeme⦄ ⦃found : σ⦄,
    read lexemes = .ok (found, rest) ↔
      ∃ value : Value, lexemes = value.lexemes ++ rest ∧ read value.lexemes = .ok (found, [])

theorem readAll_eq_ok_iff {read : Reads σ} {text : String} {found : σ} :
    readAll read text = .ok found ↔ read (lex text) = .ok (found, []) := by
  rw [readAll]
  split <;> simp_all

end DepSpec.Json
