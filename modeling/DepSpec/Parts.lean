import DepSpec.Rendering

/-! The parts of a text by plain recursion, which the walk through the items produces in the same
order. -/

namespace DepSpec

variable {α : Type}

/-- The parts around the parts of the members of a group. -/
def Head.wrap (inAnyOf : Bool) (parts : List String) : Head → List String
  | .allOf => if inAnyOf then "(" :: (parts ++ [")"]) else parts
  | .anyOf => "||" :: "(" :: (parts ++ [")"])
  | .when test => (test.text ++ "?") :: "(" :: (parts ++ [")"])

mutual

def Item.parts (text : α → String) (inAnyOf : Bool) : Item α → List String
  | .term value => [text value]
  | .group head members => head.wrap inAnyOf (partsOfItems text head.isAnyOf members)

def partsOfItems (text : α → String) (inAnyOf : Bool) : List (Item α) → List String
  | [] => []
  | item :: items => item.parts text inAnyOf ++ partsOfItems text inAnyOf items

end

theorem partsOfItems_append (text : α → String) (inAnyOf : Bool) (xs ys : List (Item α)) :
    partsOfItems text inAnyOf (xs ++ ys) =
      partsOfItems text inAnyOf xs ++ partsOfItems text inAnyOf ys := by
  induction xs with
  | nil => rfl
  | cons x xs ih => simp [partsOfItems, ih]

namespace Rendering

def inAnyOf (state : Rendering) : Bool := decide (state.within.head? = some .choice)

def append (state : Rendering) (parts : List String) : Rendering :=
  { state with parts := parts.reverse ++ state.parts }

theorem append_append (state : Rendering) (xs ys : List String) :
    (state.append xs).append ys = state.append (xs ++ ys) := by
  simp [append]

mutual

theorem foldl_events (text : α → String) (state : Rendering) (item : Item α) :
    item.events.foldl (add text) state = state.append (item.parts text state.inAnyOf) := by
  match item with
  | .term value => simp [Item.events, add, Item.parts, append]
  | .group head members =>
    simp only [Item.events, List.foldl_cons, List.foldl_append, List.foldl_nil, add,
      foldl_itemEvents text _ members, Item.parts]
    cases head with
    | allOf =>
      by_cases h : state.within.head? = some .choice <;>
        simp [enclosureOf, opening, append, inAnyOf, Enclosure.closing, Head.wrap, Head.isAnyOf, h]
    | anyOf =>
      simp [enclosureOf, opening, append, inAnyOf, Enclosure.closing, Head.wrap, Head.isAnyOf]
    | when test =>
      simp [enclosureOf, opening, append, inAnyOf, Enclosure.closing, Head.wrap, Head.isAnyOf]

theorem foldl_itemEvents (text : α → String) (state : Rendering) (items : List (Item α)) :
    (itemEvents items).foldl (add text) state =
      state.append (partsOfItems text state.inAnyOf items) := by
  match items with
  | [] => simp [itemEvents, append, partsOfItems]
  | item :: items =>
    simp [itemEvents, foldl_events text _ item, foldl_itemEvents text _ items, append_append,
      partsOfItems, show ∀ parts, (state.append parts).inAnyOf = state.inAnyOf from fun _ => rfl]

end

end Rendering

theorem Spec.parts_eq_partsOfItems (text : α → String) (spec : Spec α) :
    spec.parts text = partsOfItems text false spec.items := by
  simp [Spec.parts, events_eq_itemEvents, Rendering.foldl_itemEvents, Rendering.append,
    Rendering.start, Rendering.inAnyOf]

end DepSpec
