import DepSpec.Item
import DepSpec.MetadataKey

/-! The kinds of token: parentheses, operators that introduce a group, and terms. -/

namespace DepSpec

inductive Token where
  | opening
  | closing
  | anyOf
  /-- A flag with a question mark; no test if the flag is not well-formed. -/
  | flag (test? : Option FlagTest)
  | stray
  | term
deriving DecidableEq

namespace Token

def isReserved (c : Char) : Bool := c == '(' || c == ')' || c == '|'

/-- The token without its last character if that is a question mark. -/
def flagPart? (token : String) : Option String :=
  match token.toList.reverse with
  | '?' :: rest => some (String.ofList rest.reverse)
  | _ => none

def ofString (token : String) : Token :=
  if token = "(" then .opening
  else if token = ")" then .closing
  else if token = "||" then .anyOf
  else match flagPart? token with
    | some name => .flag (FlagTest.ofToken? name)
    | none => if token.toList.any isReserved then .stray else .term

end Token

/-- The head of the group that a flag with a question mark introduces. -/
def AllowedOperators.conditionalHead (allowed : AllowedOperators) (test? : Option FlagTest) :
    Except GrammarFault Head :=
  if allowed.conditional then
    match test? with
    | some test => .ok (.when test)
    | none => .error .malformedToken
  else .error .operatorNotAllowed

end DepSpec
