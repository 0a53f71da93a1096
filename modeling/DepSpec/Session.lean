import DepSpec.Evaluation
import DepSpec.Parse

/-! What a caller holds after a session: items and specifications, made by any operations in any
order out of texts, terms and what was held before. -/

namespace DepSpec

variable {α : Type}

/-- The items and the specifications held, in the order in which they were made. -/
structure Session (α : Type) where
  items : List (Item α)
  specs : List (Spec α)

/-- What a caller may do. Items and specifications are given by their positions in the session. -/
inductive Operation (α : Type) where
  | parse (allowed : AllowedOperators) (readTerm : List String → String → Except String α)
      (text : String)
  | empty
  | ofItems (positions : List Nat)
  | evaluate (selection : FlagSelection) (position : Nat)
  | copySpec (position : Nat)
  | itemsOf (position : Nat)
  | term (value : α)
  | allOf (positions : List Nat)
  | anyOf (positions : List Nat)
  | conditional (guard : Guard) (positions : List Nat)
  | copyItem (position : Nat)
  | membersOf (position : Nat)

namespace Session

def start : Session α := ⟨[], []⟩

/-- The items at some positions, each of them as often as its position is given. -/
def pick (session : Session α) (positions : List Nat) : List (Item α) :=
  positions.filterMap fun position => session.items[position]?

/-- What an operation makes. It makes nothing if it is refused or what it is about is not held. -/
def made (session : Session α) : Operation α → Session α
  | .parse allowed readTerm text =>
    ⟨[], (parseRecalling allowed readTerm text).result.toOption.toList⟩
  | .empty => ⟨[], [.empty]⟩
  | .ofItems positions => ⟨[], [.ofItems (session.pick positions)]⟩
  | .evaluate selection position =>
    ⟨[], session.specs[position]?.toList.map (Spec.evaluate selection)⟩
  | .copySpec position => ⟨[], session.specs[position]?.toList.map (Spec.map id)⟩
  | .itemsOf position => ⟨session.specs[position]?.toList.flatMap Spec.items, []⟩
  | .term value => ⟨[.term value], []⟩
  | .allOf positions => ⟨(Item.allOf? (session.pick positions)).toList, []⟩
  | .anyOf positions => ⟨(Item.anyOf? (session.pick positions)).toList, []⟩
  | .conditional guard positions =>
    ⟨(Item.conditional? guard (session.pick positions)).toList, []⟩
  | .copyItem position => ⟨mapTerms id session.items[position]?.toList, []⟩
  | .membersOf position => ⟨session.items[position]?.toList.flatMap Item.members, []⟩

def perform (session : Session α) (operation : Operation α) : Session α :=
  ⟨session.items ++ (session.made operation).items, session.specs ++ (session.made operation).specs⟩

/-- The session after some operations. -/
def run (operations : List (Operation α)) : Session α :=
  operations.foldl perform start

end Session

end DepSpec
