import DepSpec.JsonLexeme

/-! Reading values of a known shape from the lexemes of a JSON text. The first fault from left to
right counts. A record is written as an object, or as the list of its first fields in order. -/

namespace DepSpec.Json

variable {ρ σ : Type}

/-- Reading takes lexemes from the front. -/
abbrev Reads := StateT (List Lexeme) (Except Fault)

/-- The fault of a lexeme where a value of another shape should begin. -/
def Lexeme.misfit : Lexeme → Fault
  | .word _ => .mismatched
  | .brokenWord fault => fault
  | .text (some _) => .mismatched
  | .text none => .malformed
  | .brokenText read _ => read
  | .number true => .mismatched
  | .number false => .malformed
  | .brokenNumber read => read
  | .mark c => if c = '[' ∨ c = '\x7b' then .mismatched else .malformed

def next : Reads Lexeme := fun lexemes =>
  match lexemes with
  | [] => .error .truncated
  | found :: rest => .ok (found, rest)

def peek : Reads Lexeme := fun lexemes =>
  match lexemes with
  | [] => .error .truncated
  | found :: _ => .ok (found, lexemes)

/-- Takes a mark where nothing else may stand. -/
def readMark (c : Char) : Reads Unit := do
  if (← next) = .mark c then return () else throw .malformed

def readNull : Reads Unit := do
  match ← next with
  | .word .null => return ()
  | other => throw other.misfit

def readBool : Reads Bool := do
  match ← next with
  | .word .true => return true
  | .word .false => return false
  | other => throw other.misfit

def readText : Reads String := do
  match ← next with
  | .text (some value) => return value
  | other => throw other.misfit

/-- Reads the texts of a list after its first one. -/
def moreTexts (seen : List String) : List Lexeme → Except Fault (List String × List Lexeme)
  | .mark ']' :: rest => .ok (seen.reverse, rest)
  | .mark ',' :: .text (some value) :: rest => moreTexts (value :: seen) rest
  | .mark ',' :: other :: _ => .error other.misfit
  | [.mark ','] => .error .truncated
  | _ :: _ => .error .malformed
  | [] => .error .truncated

def readTexts : Reads (List String) := do
  let found ← next
  if found = .mark '[' then
    if (← peek) = .mark ']' then
      let _ ← next
      return []
    else
      let value ← readText
      moreTexts [value]
  else throw found.misfit

def readOptional (read : Reads σ) : Reads (Option σ) := do
  if (← peek) = .word .null then
    readNull
    return none
  else return some (← read)

/-- What may come next in a value that is being skipped. -/
inductive Place where
  | value
  | first
  | next
  | key
  | colon

/-- What follows a comma inside the innermost of the lists and objects that are open. -/
def placeAfterComma (owed : List Char) : Place :=
  if owed.head? = some '\x7d' then .key else .value

/-- Skips one value of any shape; the closing marks still owed are listed innermost first. -/
def skipFrom (owed : List Char) (place : Place) :
    List Lexeme → Except Fault (Unit × List Lexeme)
  | [] => .error .truncated
  | found :: rest =>
    let closes := owed.head?.any fun c => found == .mark c
    let close := fun (_ : Unit) =>
      if owed.tail.isEmpty then .ok ((), rest) else skipFrom owed.tail .next rest
    let skipItem := fun (_ : Unit) =>
      match found with
      | .word _ | .text _ | .number _ =>
        if owed.isEmpty then .ok ((), rest) else skipFrom owed .next rest
      | .mark c =>
        if c = '[' then skipFrom (']' :: owed) .first rest
        else if c = '\x7b' then skipFrom ('\x7d' :: owed) .first rest
        else .error .malformed
      | .brokenWord fault => .error fault
      | .brokenText _ skipped => .error skipped
      | .brokenNumber _ => .error .malformed
    let skipKey := fun (_ : Unit) =>
      match found with
      | .text _ => skipFrom owed .colon rest
      | .brokenText _ skipped => .error skipped
      | _ => .error .malformed
    match place with
    | .value => skipItem ()
    | .key => skipKey ()
    | .colon => if found = .mark ':' then skipFrom owed .value rest else .error .malformed
    | .first =>
      if closes then close ()
      else match placeAfterComma owed with
        | .key => skipKey ()
        | _ => skipItem ()
    | .next =>
      if closes then close ()
      else if found = .mark ',' then skipFrom owed (placeAfterComma owed) rest
      else .error .malformed

def skipValue : Reads Unit := skipFrom [] .value

/-- A named field of a record, with the way its value is read into the record. -/
structure RecordField (ρ : Type) where
  name : String
  read : ρ → Reads ρ

def readKey : Reads String := do
  match ← next with
  | .text (some key) => return key
  | .brokenText read _ => throw read
  | _ => throw .malformed

/-- A key that names a field may not come twice. -/
def isRepeated (fields : List (RecordField ρ)) (seen : List String) (key : String) : Bool :=
  (fields.any fun field => field.name == key) && seen.contains key

/-- Reads the key of a member, with the colon behind it. -/
def readNewKey (fields : List (RecordField ρ)) (seen : List String) : Reads String := do
  let key ← readKey
  if isRepeated fields seen key then throw .mismatched
  readMark ':'
  return key

/-- Reads the value of a member into a record; the value of a key that names no field is skipped. -/
def readMember (fields : List (RecordField ρ)) (key : String) (record : ρ) : Reads ρ :=
  match fields.find? fun field => field.name == key with
  | some field => field.read record
  | none => do
    skipValue
    return record

/-- Reads what follows the value of a member: the end of the object, or more members. -/
def readMoreMembers (record : ρ) (more : Reads ρ) : Reads ρ := do
  let found ← next
  if found = .mark '\x7d' then return record
  else if found = .mark ',' then more
  else throw .malformed

/-- Reads the members of an object, at most so many. -/
def readMembers (fields : List (RecordField ρ)) : Nat → List String → ρ → Reads ρ
  | 0, _, _ => throw .malformed
  | limit + 1, seen, record => do
    let key ← readNewKey fields seen
    let record ← readMember fields key record
    readMoreMembers record (readMembers fields limit (key :: seen) record)

/-- Reads an object behind its opening mark. -/
def readObject (fields : List (RecordField ρ)) (record : ρ) : Reads ρ := do
  if (← peek) = .mark '\x7d' then
    let _ ← next
    return record
  else readMembers fields (← get).length [] record

/-- Reads a list of the first fields in order; nothing may follow the last field. -/
def readElements (isFirst : Bool) : List (RecordField ρ) → ρ → Reads ρ
  | [], record => do
    readMark ']'
    return record
  | field :: fields, record => do
    if (← peek) = .mark ']' then
      let _ ← next
      return record
    else
      unless isFirst do
        readMark ','
      let record ← field.read record
      readElements false fields record

def readRecord (fields : List (RecordField ρ)) (record : ρ) : Reads ρ := do
  let found ← next
  if found = .mark '[' then readElements true fields record
  else if found = .mark '\x7b' then readObject fields record
  else throw found.misfit

/-- Reads a text that is one of several names. -/
def readKnown (ofName? : String → Option σ) (read : Reads String) : Reads σ := do
  match ofName? (← read) with
  | some value => return value
  | none => throw .mismatched

/-- One of several names, written as a text, or as an object with that key and the value null. -/
def readName (ofName? : String → Option σ) : Reads σ := do
  match ← peek with
  | .mark '\x7b' =>
    let _ ← next
    let value ← readKnown ofName? readKey
    readMark ':'
    readNull
    readMark '\x7d'
    return value
  | .text _ | .brokenText _ _ => readKnown ofName? readText
  | _ => throw .malformed

/-- Reads a whole text; nothing may follow the value. -/
def readAll (read : Reads σ) (text : String) : Except Fault σ :=
  match read (lex text) with
  | .ok (value, []) => .ok value
  | .ok (_, _ :: _) => .error .malformed
  | .error fault => .error fault

end DepSpec.Json
