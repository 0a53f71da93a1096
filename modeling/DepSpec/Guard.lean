import DepSpec.Names
import DepSpec.Unparseable

/-! Guards: conditions on the enabled flags. A test of one flag asks that it is enabled, or,
negated, that it is not; a guard is a single test or a conjunction of guards, nested to any
depth. -/

namespace DepSpec

structure FlagTest where
  flag : String
  negated : Bool
deriving DecidableEq

def isFlagName : List Char → Bool
  | [] => false
  | c :: _ => c != '!'

namespace FlagTest

def holds (test : FlagTest) (enabled : List String) : Bool :=
  enabled.contains test.flag != test.negated

def text (test : FlagTest) : String :=
  if test.negated then "!" ++ test.flag else test.flag

/-- Reads a flag name with at most one exclamation mark before it. -/
def ofToken? (token : String) : Option FlagTest :=
  match token.toList with
  | '!' :: name => if isFlagName name then some ⟨String.ofList name, true⟩ else none
  | name => if isFlagName name then some ⟨String.ofList name, false⟩ else none

end FlagTest

inductive Guard where
  | test (t : FlagTest)
  | all (parts : List Guard)

namespace Guard

def enabled (flag : String) : Guard := .test ⟨flag, false⟩

def disabled (flag : String) : Guard := .test ⟨flag, true⟩

def ofToken (token : String) : Except GrammarFault Guard :=
  match FlagTest.ofToken? token with
  | some t => .ok (.test t)
  | none => .error .malformedToken

/-- A single guard stands for itself. -/
def conjunction : List Guard → Guard
  | [part] => part
  | parts => .all parts

def ofTokens (tokens : List String) : Except GrammarFault Guard := do
  let parts ← tokens.mapM ofToken
  if parts.isEmpty then .error .emptyGuard else .ok (conjunction parts)

mutual

def holds (enabled : List String) : Guard → Bool
  | .test t => t.holds enabled
  | .all parts => allHold enabled parts

def allHold (enabled : List String) : List Guard → Bool
  | [] => true
  | part :: parts => part.holds enabled && allHold enabled parts

end

theorem allHold_eq_all (enabled : List String) (parts : List Guard) :
    allHold enabled parts = parts.all (holds enabled) := by
  induction parts with
  | nil => rfl
  | cons part parts ih => rw [allHold, ih, List.all_cons]

theorem holds_conjunction (enabled : List String) (parts : List Guard) :
    (conjunction parts).holds enabled = parts.all (holds enabled) := by
  match parts with
  | [] => rfl
  | [part] => simp [conjunction]
  | part :: other :: parts => simp [conjunction, holds, allHold_eq_all]

mutual

/-- Every test that occurs in a guard, from left to right. -/
def tests : Guard → List FlagTest
  | .test t => [t]
  | .all parts => testsOfParts parts

def testsOfParts : List Guard → List FlagTest
  | [] => []
  | part :: parts => part.tests ++ testsOfParts parts

end

def names (guard : Guard) : List String :=
  sortedNames (guard.tests.map FlagTest.flag)

def negated : Guard → Bool
  | .test t => t.negated
  | .all _ => false

mutual

/-- The only test of a guard that is one test, or a conjunction of one such guard. -/
def singleTest? : Guard → Option FlagTest
  | .test t => some t
  | .all parts => singleTestOfParts? parts

def singleTestOfParts? : List Guard → Option FlagTest
  | [part] => part.singleTest?
  | _ => none

end

mutual

def text : Guard → String
  | .test t => t.text
  | .all parts => " ".intercalate (texts parts)

def texts : List Guard → List String
  | [] => []
  | part :: parts => part.text :: texts parts

end

end Guard

end DepSpec
