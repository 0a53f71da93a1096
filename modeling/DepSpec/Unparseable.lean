import DepSpec.Printable

/-! Why a text is no dependency specification: a fault of its grammar, or a term that is refused. -/

namespace DepSpec

inductive GrammarFault where
  | unbalanced
  | emptyGroup
  | malformedToken
  | missingOpenParen
  | operatorNotAllowed
  | emptyGuard
deriving DecidableEq

def GrammarFault.message : GrammarFault → String
  | .unbalanced => "unbalanced grouping"
  | .emptyGroup => "empty group"
  | .malformedToken => "malformed token"
  | .missingOpenParen => "expected '(' after operator"
  | .operatorNotAllowed => "operator not allowed here"
  | .emptyGuard => "empty flag predicate"

inductive ParseFault where
  | grammar (fault : GrammarFault) (token : Option String)
  /-- The token was to be a term and was refused for a reason of the reader of terms. -/
  | rejected (token reason : String)
deriving DecidableEq

structure Unparseable where
  text : String
  fault : ParseFault
deriving DecidableEq

namespace ParseFault

def token? : ParseFault → Option String
  | .grammar _ token => token
  | .rejected token _ => some token

def reason? : ParseFault → Option String
  | .grammar _ _ => none
  | .rejected _ reason => some reason

/-- The token that was shown to the reader of terms last. -/
def refused? : ParseFault → Option String
  | .grammar _ _ => none
  | .rejected token _ => some token

def message : ParseFault → String
  | .grammar fault none => fault.message
  | .grammar fault (some token) => fault.message ++ ", flagged token " ++ quoted token
  | .rejected token _ => "flagged token " ++ quoted token ++ " was rejected"

end ParseFault

def Unparseable.message (error : Unparseable) : String :=
  quoted error.text ++ " is unparseable: " ++ error.fault.message

end DepSpec
