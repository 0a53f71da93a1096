import DepSpec.Evaluation
import DepSpec.Parse
import DepSpec.Rendering

/-! Revisions of specifications that were read as plain text: each makes one specification out of
those held, and all of these remain held. -/

namespace DepSpec

variable {α : Type}

namespace Spec

def joined (specs : List (Spec α)) : Spec α := .ofItems (specs.flatMap Spec.items)

/-- The members of the item at an index, of which a term has none. -/
def membersAt? (index : Nat) (spec : Spec α) : Option (Spec α) :=
  spec.items[index]?.map fun item => .ofItems item.members

/-- All items put into one, unless that is refused. -/
def wrapped? (wrap : List (Item α) → Option (Item α)) (spec : Spec α) : Option (Spec α) :=
  (wrap spec.items).map fun item => .ofItems [item]

end Spec

/-- Specifications are given by their positions among those held. -/
inductive Revision where
  | read (text : String)
  | empty
  | evaluate (selection : FlagSelection) (position : Nat)
  | copy (position : Nat)
  | reread (position : Nat)
  | join (positions : List Nat)
  | membersAt (index position : Nat)
  | allOf (position : Nat)
  | anyOf (position : Nat)
  | conditional (token : String) (position : Nat)

namespace Revision

/-- Nothing is made if a text or a token is refused, or if there is nothing at a position. -/
def made? (held : List (Spec String)) : Revision → Option (Spec String)
  | .read text => (parseText text).toOption
  | .empty => some .empty
  | .evaluate selection position => held[position]?.map (Spec.evaluate selection)
  | .copy position => held[position]?.map (Spec.map id)
  | .reread position => held[position]?.bind fun spec => (parseText spec.text).toOption
  | .join positions => some (.joined (positions.filterMap fun position => held[position]?))
  | .membersAt index position => held[position]?.bind (Spec.membersAt? index)
  | .allOf position => held[position]?.bind (Spec.wrapped? Item.allOf?)
  | .anyOf position => held[position]?.bind (Spec.wrapped? Item.anyOf?)
  | .conditional token position =>
    (Guard.ofToken token).toOption.bind fun guard =>
      held[position]?.bind (Spec.wrapped? (Item.conditional? guard))

def perform (held : List (Spec String)) (revision : Revision) : List (Spec String) :=
  held ++ (revision.made? held).toList

def run (revisions : List Revision) : List (Spec String) :=
  revisions.foldl perform []

end Revision

end DepSpec
