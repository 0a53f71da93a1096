import DepSpec.Unparseable
import DepSpec.Spec
import DepSpec.Token
import DepSpec.Words

/-! Reading a dependency specification, word by word. The groups that are open are kept in a list,
so nesting is bounded by nothing. -/

namespace DepSpec

variable {α : Type}

structure OpenGroup (α : Type) where
  head : Head
  openedBy : String
  members : List (Item α)

/-- A specification partly read: its items so far, the groups that are open, innermost first, the
operator whose parenthesis must come next, whether a conditional was closed, and the words that
were taken for terms. Items and words are kept last first. -/
structure Reader (α : Type) where
  items : List (Item α)
  groups : List (OpenGroup α)
  operator : Option (Head × String)
  conditional : Bool
  shown : List String

namespace Reader

def start : Reader α := ⟨[], [], none, false, []⟩

def place (reader : Reader α) (item : Item α) : Reader α :=
  match reader.groups with
  | [] => { reader with items := item :: reader.items }
  | group :: groups =>
    { reader with groups := { group with members := item :: group.members } :: groups }

def openGroup (reader : Reader α) (head : Head) (openedBy : String) : Reader α :=
  { reader with groups := ⟨head, openedBy, []⟩ :: reader.groups, operator := none }

def await (reader : Reader α) (head : Head) (token : String) : Reader α :=
  { reader with operator := some (head, token) }

def closeGroup (reader : Reader α) : Except ParseFault (Reader α) :=
  match reader.groups with
  | [] => .error (.grammar .unbalanced (some ")"))
  | group :: groups =>
    if group.members.isEmpty then .error (.grammar .emptyGroup (some group.openedBy))
    else
      let reader := { reader with
        groups := groups
        conditional := reader.conditional || group.head.test?.isSome }
      .ok (reader.place (.group group.head group.members.reverse))

/-- Reads one word. After an operator only its parenthesis may come. -/
def readWord (allowed : AllowedOperators) (readTerm : String → Except String α) (reader : Reader α)
    (word : String) : Except ParseFault (Reader α) :=
  match reader.operator, Token.ofString word with
  | some (head, operator), .opening => .ok (reader.openGroup head operator)
  | some _, _ => .error (.grammar .missingOpenParen (some word))
  | none, .opening => .ok (reader.openGroup .allOf word)
  | none, .closing => reader.closeGroup
  | none, .anyOf =>
    if allowed.anyOf then .ok (reader.await .anyOf word)
    else .error (.grammar .operatorNotAllowed (some word))
  | none, .flag test? =>
    match allowed.conditionalHead test? with
    | .ok head => .ok (reader.await head word)
    | .error fault => .error (.grammar fault (some word))
  | none, .stray => .error (.grammar .malformedToken (some word))
  | none, .term =>
    match readTerm word with
    | .ok value => .ok ({ reader with shown := word :: reader.shown }.place (.term value))
    | .error reason => .error (.rejected word reason)

def finish (reader : Reader α) : Except ParseFault (Spec α) :=
  match reader.operator, reader.groups with
  | some _, _ => .error (.grammar .missingOpenParen none)
  | none, group :: _ => .error (.grammar .unbalanced (some group.openedBy))
  | none, [] => .ok ⟨reader.items.reverse, reader.conditional⟩

end Reader

/-- What reading comes to, and the words that the reader of terms was shown, in order. -/
structure Outcome (ε α : Type) where
  result : Except ε (Spec α)
  shown : List String

namespace Reader

def outcome (reader : Reader α) (result : Except ParseFault (Spec α)) : Outcome ParseFault α :=
  match result with
  | .ok spec => ⟨.ok spec, reader.shown.reverse⟩
  | .error fault => ⟨.error fault, (fault.refused?.toList ++ reader.shown).reverse⟩

/-- Reads with a reader of terms that may recall the words it was shown before, first to last. It is
specialized, so that for a reader that ignores these words they are not listed at every word. -/
@[specialize]
def runRecalling (allowed : AllowedOperators)
    (readTerm : List String → String → Except String α) :
    Reader α → List String → Outcome ParseFault α
  | reader, [] => reader.outcome reader.finish
  | reader, word :: words =>
    match reader.readWord allowed (readTerm reader.shown.reverse) word with
    | .ok next => next.runRecalling allowed readTerm words
    | .error fault => reader.outcome (.error fault)

def run (allowed : AllowedOperators) (readTerm : String → Except String α) (reader : Reader α)
    (words : List String) : Outcome ParseFault α :=
  reader.runRecalling allowed (fun _ => readTerm) words

theorem run_nil (allowed : AllowedOperators) (readTerm : String → Except String α)
    (reader : Reader α) : reader.run allowed readTerm [] = reader.outcome reader.finish := rfl

theorem run_cons (allowed : AllowedOperators) (readTerm : String → Except String α)
    (reader : Reader α) (word : String) (words : List String) :
    reader.run allowed readTerm (word :: words) =
      match reader.readWord allowed readTerm word with
      | .ok next => next.run allowed readTerm words
      | .error fault => reader.outcome (.error fault) := rfl

end Reader

@[inline]
def parseRecalling (allowed : AllowedOperators)
    (readTerm : List String → String → Except String α) (text : String) : Outcome Unparseable α :=
  let outcome := Reader.start.runRecalling allowed readTerm (words text)
  ⟨outcome.result.mapError fun fault => ⟨text, fault⟩, outcome.shown⟩

def parse (allowed : AllowedOperators) (readTerm : String → Except String α) (text : String) :
    Outcome Unparseable α :=
  parseRecalling allowed (fun _ => readTerm) text

theorem parse_eq (allowed : AllowedOperators) (readTerm : String → Except String α)
    (text : String) :
    parse allowed readTerm text =
      ⟨(Reader.start.run allowed readTerm (words text)).result.mapError fun fault => ⟨text, fault⟩,
        (Reader.start.run allowed readTerm (words text)).shown⟩ := rfl

/-- Takes every word for a term that is no operator and no parenthesis. -/
def parseWords (allowed : AllowedOperators) (text : String) : Except Unparseable (Spec String) :=
  (parse allowed .ok text).result

def parseText (text : String) : Except Unparseable (Spec String) :=
  parseWords .default text

end DepSpec
