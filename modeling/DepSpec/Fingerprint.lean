import DepSpec.Tour

/-! The fingerprint of items with text terms: numbers from which the items can be told. A text
gives its bytes and then 255, which is no byte of a text; a group gives the number of its members
before them. -/

namespace DepSpec

def textMarks (text : String) : List Nat :=
  text.toUTF8.toList.map UInt8.toNat ++ [255]

def polarityMark (negated : Bool) : Nat := if negated then 1 else 0

def FlagTest.marks (test : FlagTest) : List Nat :=
  0 :: (textMarks test.flag ++ [polarityMark test.negated])

namespace Guard

mutual

def marks : Guard → List Nat
  | .test t => t.marks
  | .all parts => 1 :: parts.length :: marksOfParts parts

def marksOfParts : List Guard → List Nat
  | [] => []
  | part :: parts => part.marks ++ marksOfParts parts

end

end Guard

namespace Head

def kindMark : Head → Nat
  | .allOf | .anyOf => 1
  | .when _ => 2

def marks : Head → List Nat
  | .allOf => [0]
  | .anyOf => [1]
  | .when test => test.marks

end Head

def Event.marks : Event String → List Nat
  | .term value => 0 :: textMarks value
  | .enter head size => head.kindMark :: (head.marks ++ [size])
  | .leave => []

def fingerprint (items : List (Item String)) : List Nat :=
  items.length :: (events items).flatMap Event.marks

def Item.fingerprint (item : Item String) : List Nat :=
  DepSpec.fingerprint [item]

/-- The fingerprint of a group without the mark that tells it from other kinds of item. -/
def groupFingerprint (head : Head) (members : List (Item String)) : List Nat :=
  head.marks ++ fingerprint members

/-- The fingerprint of members under a guard of any form. -/
def conditionalFingerprint (guard : Guard) (members : List (Item String)) : List Nat :=
  guard.marks ++ fingerprint members

end DepSpec
