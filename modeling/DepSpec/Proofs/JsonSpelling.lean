import DepSpec.JsonValue

/-! Lexemes as they are spelled in a JSON text. A text is cut into the lexemes that it was spelled
from, whatever gaps lie between them. -/

namespace DepSpec.Json

def hexDigit (n : Nat) : Char := "0123456789abcdef".toList.getD n '0'

/-- How a character is spelled inside a quoted text. -/
def spelledChar (c : Char) : List Char :=
  if c = '"' ∨ c = '\\' then ['\\', c]
  else if c.toNat < 0x20 then
    ['\\', 'u', '0', '0', hexDigit (c.toNat / 16), hexDigit (c.toNat % 16)]
  else [c]

def Lexeme.spelling : Lexeme → List Char
  | .word .null => ['n', 'u', 'l', 'l']
  | .word .true => ['t', 'r', 'u', 'e']
  | .word .false => ['f', 'a', 'l', 's', 'e']
  | .text (some value) => '"' :: (value.toList.flatMap spelledChar ++ ['"'])
  | .mark c => [c]
  | _ => []

/-- Words, texts of whole characters, and the marks that a value is written with. -/
def Lexeme.IsSpelled : Lexeme → Prop
  | .word _ => True
  | .text value => value.isSome
  | .mark c => c ∈ ['[', ']', '\x7b', '\x7d', ',', ':']
  | _ => False

theorem hexValue?_hexDigit {n : Nat} (h : n < 0x20) :
    hexValue? ['0', '0', hexDigit (n / 16), hexDigit (n % 16)] = some n := by
  have hall : ∀ m < 0x20, hexValue? ['0', '0', hexDigit (m / 16), hexDigit (m % 16)] = some m := by
    decide
  exact hall n h

/-- The piece that a character is read as. -/
def pieceOf (c : Char) : Nat ⊕ Char := if c.toNat < 0x20 then .inl c.toNat else .inr c

theorem pieces_spelledChar (c : Char) (seen : List (Nat ⊕ Char)) (cs : List Char) :
    pieces seen (spelledChar c ++ cs) = pieces (pieceOf c :: seen) cs := by
  by_cases hq : c = '"' ∨ c = '\\'
  · rcases hq with rfl | rfl <;> rfl
  · by_cases hc : c.toNat < 0x20
    · simp [spelledChar, pieceOf, hq, hc, pieces, hexValue?_hexDigit hc]
    · rw [not_or] at hq
      simp [spelledChar, pieceOf, hq, hc, pieces]

theorem pieces_spelled (text : List Char) (seen : List (Nat ⊕ Char)) (cs : List Char) :
    pieces seen (text.flatMap spelledChar ++ '"' :: cs) =
      (seen.reverse ++ text.map pieceOf, .ok cs) := by
  induction text generalizing seen with
  | nil => simp [pieces]
  | cons c text ih =>
    rw [List.flatMap_cons, List.append_assoc, pieces_spelledChar, ih]
    simp

theorem joined_map_pieceOf (text out : List Char) :
    joined false out (text.map pieceOf) = some (out.reverse ++ text) := by
  induction text generalizing out with
  | nil => simp [joined]
  | cons c text ih =>
    rw [List.map_cons]
    by_cases hc : c.toNat < 0x20
    · have hp : pieceOf c = .inl c.toNat := if_pos hc
      have ht : isTrailing c.toNat = false := by
        simp only [isTrailing, Bool.and_eq_false_imp, decide_eq_true_eq]
        omega
      have hl : isLeading c.toNat = false := by
        simp only [isLeading, Bool.and_eq_false_imp, decide_eq_true_eq]
        omega
      rw [hp, joined.eq_def]
      simp [ht, hl, ih]
    · have hp : pieceOf c = .inr c := if_neg hc
      rw [hp, joined, ih]
      simp

theorem textLexeme_spelled (value : String) (rest : List Char) :
    textLexeme (value.toList.flatMap spelledChar ++ '"' :: rest) = (.text (some value), rest) := by
  rw [textLexeme, pieces_spelled]
  simp [joined_map_pieceOf]

/-- A spelling begins with no gap, is cut off as the lexeme, and what follows is left as it is. -/
theorem lexeme_spelling {found : Lexeme} (h : found.IsSpelled) :
    ∃ c cs, found.spelling = c :: cs ∧ isGap c = false ∧
      ∀ rest, lexeme c (cs ++ rest) = (found, rest) := by
  cases found with
  | word word => cases word <;> exact ⟨_, _, rfl, rfl, fun rest => rfl⟩
  | text value =>
    obtain ⟨value, rfl⟩ := Option.isSome_iff_exists.mp h
    refine ⟨_, _, rfl, rfl, fun rest => ?_⟩
    rw [List.append_assoc]
    exact textLexeme_spelled value rest
  | mark c =>
    refine ⟨c, [], rfl, ?_⟩
    simp only [Lexeme.IsSpelled, List.mem_cons, List.not_mem_nil, or_false] at h
    rcases h with rfl | rfl | rfl | rfl | rfl | rfl <;> exact ⟨rfl, fun rest => rfl⟩
  | brokenWord | brokenText | number | brokenNumber => cases h

/-- The lexemes spelled out, each with a gap behind it. -/
def spaced (lexemes : List (Lexeme × List Char)) : List Char :=
  lexemes.flatMap fun pair => pair.1.spelling ++ pair.2

theorem lexUpTo_spaced (lexemes : List (Lexeme × List Char))
    (h : ∀ pair ∈ lexemes, pair.1.IsSpelled ∧ ∀ c ∈ pair.2, isGap c) (seen : List Lexeme)
    {gap : List Char} (hg : ∀ c ∈ gap, isGap c) {limit : Nat}
    (hl : (gap ++ spaced lexemes).length ≤ limit) :
    lexUpTo seen limit (gap ++ spaced lexemes) = seen.reverse ++ lexemes.map Prod.fst := by
  induction lexemes generalizing seen gap limit with
  | nil =>
    have hd : (gap ++ []).dropWhile isGap = [] := List.dropWhile_append_of_pos hg
    cases limit with
    | zero => simp [lexUpTo]
    | succ limit =>
      rw [spaced, List.flatMap_nil, lexUpTo, hd]
      simp
  | cons pair lexemes ih =>
    obtain ⟨found, behind⟩ := pair
    obtain ⟨hf, hb⟩ := h (found, behind) (by simp)
    obtain ⟨c, cs, hs, hc, hcut⟩ := lexeme_spelling hf
    have he : gap ++ spaced ((found, behind) :: lexemes) =
        gap ++ c :: (cs ++ (behind ++ spaced lexemes)) := by
      simp [spaced, hs]
    rw [he] at hl ⊢
    simp only [List.length_append, List.length_cons] at hl
    obtain ⟨limit, rfl⟩ := Nat.exists_eq_add_one_of_ne_zero (show limit ≠ 0 by omega)
    have hlater : ∀ pair ∈ lexemes, pair.1.IsSpelled ∧ ∀ c ∈ pair.2, isGap c :=
      fun pair hp => h pair (by simp [hp])
    rw [lexUpTo, List.dropWhile_append_of_pos hg, List.dropWhile_cons_of_neg (by simp [hc])]
    simp only [hcut]
    rw [ih hlater (found :: seen) hb (by simp; omega)]
    simp

theorem lex_spaced {gap : List Char} {lexemes : List (Lexeme × List Char)}
    (hg : ∀ c ∈ gap, isGap c)
    (h : ∀ pair ∈ lexemes, pair.1.IsSpelled ∧ ∀ c ∈ pair.2, isGap c) :
    lex (String.ofList (gap ++ spaced lexemes)) = lexemes.map Prod.fst := by
  rw [lex, String.toList_ofList]
  exact lexUpTo_spaced lexemes h [] hg (Nat.le_refl _)

/-- A text that spells a value out, with any gaps before, between and behind its lexemes. -/
def Value.IsSpelledBy (value : Value) (text : String) : Prop :=
  ∃ gap lexemes, (∀ c ∈ gap, isGap c) ∧
    (∀ pair ∈ lexemes, pair.1.IsSpelled ∧ ∀ c ∈ pair.2, isGap c) ∧
      lexemes.map Prod.fst = value.lexemes ∧ text = String.ofList (gap ++ spaced lexemes)

theorem Value.IsSpelledBy.lex_eq {value : Value} {text : String} (h : value.IsSpelledBy text) :
    lex text = value.lexemes := by
  obtain ⟨gap, lexemes, hg, hs, hv, rfl⟩ := h
  rw [lex_spaced hg hs, hv]

end DepSpec.Json
