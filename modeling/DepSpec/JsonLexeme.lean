/-! The lexemes of a JSON text. A text is cut into lexemes from left to right; what cannot be cut
further is kept as a broken lexeme, so that its fault counts only if a reader gets there. Of a
number only its size counts: as many of its digits as fit in 64 bits, times a power of ten. The two
factors are rounded to doubles, and then their product is. -/

namespace DepSpec.Json

/-- Appends digits to a significand while it stays below `2 ^ 64`; also the digits left over. -/
def absorb (significand : Nat) : List Char → Nat × List Char
  | [] => (significand, [])
  | c :: cs =>
    let longer := 10 * significand + (c.toNat - '0'.toNat)
    if longer < Nat.pow 2 64 then absorb longer cs else (significand, c :: cs)

/-- A significand times a power of ten. -/
structure Magnitude where
  significand : Nat
  scale : Int
deriving DecidableEq

namespace Magnitude

/-- Digits that do not fit still count as places before the point, and not at all behind it. -/
def ofDigits (whole fraction : List Char) : Magnitude :=
  let (front, places) := absorb 0 whole
  let (significand, dropped) := absorb front fraction
  ⟨significand, places.length + dropped.length - fraction.length⟩

def shifted (magnitude : Magnitude) (exponent : Int) : Magnitude :=
  { magnitude with scale := magnitude.scale + exponent }

end Magnitude

/-- The exponent that digits write. From `2 ^ 31` on it makes no difference how large it is: no
text has digits enough to make up for it. -/
def exponentOfDigits (digits : List Char) : Nat :=
  digits.foldl (fun size c => min (10 * size + (c.toNat - '0'.toNat)) (Nat.pow 2 31)) 0

/-- The nearest natural number of at most 53 significant bits, and of two the one whose last
significant bit is zero. -/
def roundedToDouble (n : Nat) : Nat :=
  let unit := Nat.pow 2 (n.log2 + 1 - 53)
  let quotient := n / unit
  let rest := 2 * (n % unit)
  let up := decide (unit < rest) || (rest == unit && quotient % 2 == 1)
  (if up then quotient + 1 else quotient) * unit

/-- Whether no double on the way is infinite. The largest doubles lie between the powers of ten
with the exponents 308 and 309, and a division makes nothing larger. -/
def Magnitude.isFinite (magnitude : Magnitude) : Bool :=
  magnitude.significand == 0 || decide (magnitude.scale < 0) ||
    (decide (magnitude.scale ≤ 308) &&
      let power := Nat.pow 10 magnitude.scale.toNat
      decide (roundedToDouble (roundedToDouble magnitude.significand * roundedToDouble power)
        < Nat.pow 2 1024))

/-- The text ends too early, is no JSON at some point, or is JSON of another shape. -/
inductive Fault where
  | truncated
  | malformed
  | mismatched
deriving DecidableEq

inductive Word where
  | null
  | true
  | false
deriving DecidableEq

inductive Lexeme where
  | word (word : Word)
  | brokenWord (fault : Fault)
  /-- A quoted text; no value if its surrogates are not in pairs. -/
  | text (value : Option String)
  /-- The faults when the text is read for its value and when it is skipped. -/
  | brokenText (read skipped : Fault)
  /-- Whether the number is finite as a double. -/
  | number (finite : Bool)
  | brokenNumber (read : Fault)
  /-- Any other character. -/
  | mark (c : Char)
deriving DecidableEq

def isGap (c : Char) : Bool := c == ' ' || c == '\n' || c == '\t' || c == '\r'

/-- What is left after the letters of a word. -/
def afterLetters : List Char → List Char → Except Fault (List Char)
  | [], cs => .ok cs
  | _ :: _, [] => .error .truncated
  | letter :: letters, c :: cs =>
    if c = letter then afterLetters letters cs else .error .malformed

def hexDigit? (c : Char) : Option Nat :=
  if c.isDigit then some (c.toNat - '0'.toNat)
  else if 'a' ≤ c ∧ c ≤ 'f' then some (c.toNat - 'a'.toNat + 10)
  else if 'A' ≤ c ∧ c ≤ 'F' then some (c.toNat - 'A'.toNat + 10)
  else none

def hexValue? (digits : List Char) : Option Nat :=
  digits.foldlM (fun value c => (hexDigit? c).map (16 * value + ·)) 0

def escapedChar? : Char → Option Char
  | '"' => some '"'
  | '\\' => some '\\'
  | '/' => some '/'
  | 'b' => some '\x08'
  | 'f' => some '\x0c'
  | 'n' => some '\n'
  | 'r' => some '\r'
  | 't' => some '\t'
  | _ => none

/-- The fault of an escape in hexadecimal without four characters behind it. The text ends too early
if fewer than four bytes of it are left. -/
def brokenEscape (cs : List Char) : Fault :=
  if (String.ofList cs).utf8ByteSize < 4 then .truncated else .malformed

/-- The characters of a quoted text, or the fault that ends it, with the text behind it. Escapes in
hexadecimal give units of sixteen bits, all else gives whole characters. -/
def pieces (seen : List (Nat ⊕ Char)) : List Char → List (Nat ⊕ Char) × Except Fault (List Char)
  | '\\' :: 'u' :: a :: b :: c :: d :: cs =>
    match hexValue? [a, b, c, d] with
    | some unit => pieces (.inl unit :: seen) cs
    | none => (seen.reverse, .error .malformed)
  | '\\' :: 'u' :: cs => (seen.reverse, .error (brokenEscape cs))
  | '\\' :: c :: cs =>
    match escapedChar? c with
    | some c => pieces (.inr c :: seen) cs
    | none => (seen.reverse, .error .malformed)
  | ['\\'] => (seen.reverse, .error .truncated)
  | '"' :: cs => (seen.reverse, .ok cs)
  | c :: cs =>
    if c.toNat < 0x20 then (seen.reverse, .error .malformed)
    else pieces (.inr c :: seen) cs
  | [] => (seen.reverse, .error .truncated)

def isLeading (unit : Nat) : Bool := 0xd800 ≤ unit && unit ≤ 0xdbff

def isTrailing (unit : Nat) : Bool := 0xdc00 ≤ unit && unit ≤ 0xdfff

/-- The characters of pieces whose surrogates are in pairs. In an unfinished text a leading
surrogate at the end is no fault yet. -/
def joined (unfinished : Bool) (out : List Char) : List (Nat ⊕ Char) → Option (List Char)
  | [] => some out.reverse
  | .inr c :: rest => joined unfinished (c :: out) rest
  | .inl unit :: rest =>
    if isTrailing unit then none
    else if isLeading unit then
      match rest with
      | .inl other :: rest =>
        if isTrailing other then
          let c := Char.ofNat (0x10000 + 0x400 * (unit - 0xd800) + (other - 0xdc00))
          joined unfinished (c :: out) rest
        else none
      | .inr _ :: _ => none
      | [] => if unfinished then some out.reverse else none
    else joined unfinished (Char.ofNat unit :: out) rest

def textLexeme (cs : List Char) : Lexeme × List Char :=
  match pieces [] cs with
  | (found, .ok rest) => (.text ((joined false [] found).map String.ofList), rest)
  | (found, .error fault) =>
    (.brokenText (if (joined true [] found).isSome then fault else .malformed) fault, [])

/-- The fault of a number that goes on with no digit. -/
def missingDigit (rest : List Char) : Lexeme :=
  .brokenNumber (if rest.isEmpty then .truncated else .malformed)

def exponentLexeme (magnitude : Magnitude) : List Char → Lexeme × List Char
  | c :: cs =>
    if c = 'e' ∨ c = 'E' then
      let (negative, cs) := match cs with
        | '-' :: cs => (true, cs)
        | '+' :: cs => (false, cs)
        | cs => (false, cs)
      let exponent := cs.takeWhile Char.isDigit
      if exponent.isEmpty then (missingDigit cs, [])
      else
        let size : Int := exponentOfDigits exponent
        let magnitude := magnitude.shifted (if negative then -size else size)
        (.number magnitude.isFinite, cs.dropWhile Char.isDigit)
    else (.number magnitude.isFinite, c :: cs)
  | [] => (.number magnitude.isFinite, [])

def fractionLexeme (whole : List Char) : List Char → Lexeme × List Char
  | '.' :: cs =>
    let fraction := cs.takeWhile Char.isDigit
    if fraction.isEmpty then (missingDigit cs, [])
    else exponentLexeme (.ofDigits whole fraction) (cs.dropWhile Char.isDigit)
  | cs => exponentLexeme (.ofDigits whole []) cs

/-- A number without its sign. -/
def numberLexeme (cs : List Char) : Lexeme × List Char :=
  let whole := cs.takeWhile Char.isDigit
  match whole with
  | [] => (missingDigit cs, [])
  | '0' :: _ :: _ => (.brokenNumber .malformed, [])
  | whole => fractionLexeme whole (cs.dropWhile Char.isDigit)

def wordLexeme (word : Word) (letters cs : List Char) : Lexeme × List Char :=
  match afterLetters letters cs with
  | .ok rest => (.word word, rest)
  | .error fault => (.brokenWord fault, [])

/-- The lexeme that begins with a character, and the text behind it. -/
def lexeme (c : Char) (cs : List Char) : Lexeme × List Char :=
  if c = 'n' then wordLexeme .null ['u', 'l', 'l'] cs
  else if c = 't' then wordLexeme .true ['r', 'u', 'e'] cs
  else if c = 'f' then wordLexeme .false ['a', 'l', 's', 'e'] cs
  else if c = '"' then textLexeme cs
  else if c = '-' then numberLexeme cs
  else if c.isDigit then numberLexeme (c :: cs)
  else (.mark c, cs)

def lexUpTo (seen : List Lexeme) : Nat → List Char → List Lexeme
  | 0, _ => seen.reverse
  | limit + 1, cs =>
    match cs.dropWhile isGap with
    | [] => seen.reverse
    | c :: cs =>
      let (found, rest) := lexeme c cs
      lexUpTo (found :: seen) limit rest

/-- Every lexeme takes at least one character, so the length of a text bounds their number. -/
def lex (text : String) : List Lexeme :=
  let cs := text.toList
  lexUpTo [] cs.length cs

end DepSpec.Json
