import DepSpec.Flattening
import DepSpec.Parts

/-! The flattened form of items by plain recursion, which is what flattening comes to. It has the
same text: what flattening dissolves is written without parentheses. -/

namespace DepSpec

variable {α : Type}

mutual

def Item.flattened (inAnyOf : Bool) : Item α → List (Item α)
  | .term value => [.term value]
  | .group .allOf members =>
    if inAnyOf then [.group .allOf (flattenedItems false members)]
    else flattenedItems false members
  | .group .anyOf members => [.group .anyOf (flattenedItems true members)]
  | .group (.when test) members => [.group (.when test) (flattenedItems false members)]

def flattenedItems (inAnyOf : Bool) : List (Item α) → List (Item α)
  | [] => []
  | item :: items => item.flattened inAnyOf ++ flattenedItems inAnyOf items

end

def Spec.flattened (spec : Spec α) : Spec α :=
  { spec with items := flattenedItems false spec.items }

theorem flattenedItems_append (inAnyOf : Bool) (xs ys : List (Item α)) :
    flattenedItems inAnyOf (xs ++ ys) =
      flattenedItems inAnyOf xs ++ flattenedItems inAnyOf ys := by
  induction xs with
  | nil => rfl
  | cons x xs ih => simp [flattenedItems, ih]

namespace Flattening

theorem gather_gather (state : Flattening α) (xs ys : List (Item α)) :
    (state.gather xs).gather ys = state.gather (xs ++ ys) := by
  simp [gather]

mutual

theorem foldl_events (state : Flattening α) (item : Item α) :
    item.events.foldl add state = state.gather (item.flattened state.inAnyOf) := by
  match item with
  | .term value => simp [Item.events, add, Item.flattened]
  | .group head members =>
    simp only [Item.events, List.foldl_cons, List.foldl_append, List.foldl_nil, add,
      foldl_itemEvents _ members]
    cases head with
    | allOf => cases h : state.inAnyOf <;> simp [gather, Item.flattened, Head.isAnyOf, h]
    | anyOf => simp [gather, Item.flattened, Head.isAnyOf]
    | when test => simp [gather, Item.flattened, Head.isAnyOf]

theorem foldl_itemEvents (state : Flattening α) (items : List (Item α)) :
    (itemEvents items).foldl add state = state.gather (flattenedItems state.inAnyOf items) := by
  match items with
  | [] => simp [itemEvents, gather, flattenedItems]
  | item :: items =>
    simp [itemEvents, foldl_events _ item, foldl_itemEvents _ items, gather_gather,
      flattenedItems, show ∀ xs, (state.gather xs).inAnyOf = state.inAnyOf from fun _ => rfl]

end

end Flattening

theorem flatten_eq_flattenedItems (items : List (Item α)) :
    flatten items = flattenedItems false items := by
  simp [flatten, events_eq_itemEvents, Flattening.foldl_itemEvents, Flattening.gather,
    Flattening.start]

mutual

theorem Item.parts_flattened (text : α → String) (inAnyOf : Bool) (item : Item α) :
    partsOfItems text inAnyOf (item.flattened inAnyOf) = item.parts text inAnyOf := by
  match item with
  | .term value => simp [Item.flattened, partsOfItems]
  | .group .allOf members =>
    cases inAnyOf <;>
      simp [Item.flattened, partsOfItems, Item.parts, Head.wrap, Head.isAnyOf,
        partsOfItems_flattened text false members]
  | .group .anyOf members =>
    simp [Item.flattened, partsOfItems, Item.parts, Head.wrap, Head.isAnyOf,
      partsOfItems_flattened text true members]
  | .group (.when test) members =>
    simp [Item.flattened, partsOfItems, Item.parts, Head.wrap, Head.isAnyOf,
      partsOfItems_flattened text false members]

theorem partsOfItems_flattened (text : α → String) (inAnyOf : Bool) (items : List (Item α)) :
    partsOfItems text inAnyOf (flattenedItems inAnyOf items) = partsOfItems text inAnyOf items := by
  match items with
  | [] => rfl
  | item :: items =>
    simp [flattenedItems, partsOfItems, partsOfItems_append,
      Item.parts_flattened text inAnyOf item, partsOfItems_flattened text inAnyOf items]

end

theorem Spec.render_flattened (text : α → String) (spec : Spec α) :
    spec.flattened.render text = spec.render text := by
  simp only [render, parts_eq_partsOfItems, flattened, partsOfItems_flattened]

end DepSpec
