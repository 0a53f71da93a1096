import DepSpec.Evaluation
import DepSpec.Flattened

/-! What items collapse to, by one plain recursion. Hoisting and then flattening comes to the same:
hoisted groups have two members or more, and flattening leaves as many. -/

namespace DepSpec

variable {α : Type}

/-- What the collapsed members of a group leave in the group around it. -/
def residue (outerAnyOf anyOf : Bool) : List (Item α) → List (Item α)
  | [] => []
  | [.group .allOf members] => if outerAnyOf then [.group .allOf members] else members
  | [item] => [item]
  | items =>
    if anyOf then [.group .anyOf items] else if outerAnyOf then [.group .allOf items] else items

mutual

def Item.collapsed (passes : FlagTest → Bool) (outerAnyOf : Bool) : Item α → List (Item α)
  | .term value => [.term value]
  | .group head members =>
    if head.passes passes then
      residue outerAnyOf head.isAnyOf (collapsedMembers passes head.isAnyOf members)
    else []

def collapsedMembers (passes : FlagTest → Bool) (anyOf : Bool) : List (Item α) → List (Item α)
  | [] => []
  | item :: items => item.collapsed passes anyOf ++ collapsedMembers passes anyOf items

end

theorem collapsedMembers_append (passes : FlagTest → Bool) (anyOf : Bool) (xs ys : List (Item α)) :
    collapsedMembers passes anyOf (xs ++ ys) =
      collapsedMembers passes anyOf xs ++ collapsedMembers passes anyOf ys := by
  induction xs with
  | nil => rfl
  | cons x xs ih => simp [collapsedMembers, ih]

mutual

def Item.hoisted (passes : FlagTest → Bool) : Item α → List (Item α)
  | .term value => [.term value]
  | .group head members =>
    if head.passes passes then remainder head.isAnyOf (hoistedItems passes members) else []

def hoistedItems (passes : FlagTest → Bool) : List (Item α) → List (Item α)
  | [] => []
  | item :: items => item.hoisted passes ++ hoistedItems passes items

end

namespace Hoisting

theorem keep_keep (state : Hoisting α) (xs ys : List (Item α)) :
    (state.keep xs).keep ys = state.keep (xs ++ ys) := by
  simp [keep]

mutual

theorem foldl_events (passes : FlagTest → Bool) (state : Hoisting α) (item : Item α) :
    item.events.foldl (add passes) state = state.keep (item.hoisted passes) := by
  match item with
  | .term value => simp [Item.events, add, Item.hoisted]
  | .group head members =>
    simp only [Item.events, List.foldl_cons, List.foldl_append, List.foldl_nil, add,
      foldl_itemEvents passes _ members, Item.hoisted]
    cases head.passes passes <;> simp [keep]

theorem foldl_itemEvents (passes : FlagTest → Bool) (state : Hoisting α)
    (items : List (Item α)) :
    (itemEvents items).foldl (add passes) state = state.keep (hoistedItems passes items) := by
  match items with
  | [] => simp [itemEvents, keep, hoistedItems]
  | item :: items =>
    simp [itemEvents, foldl_events passes _ item, foldl_itemEvents passes _ items, keep_keep,
      hoistedItems]

end

end Hoisting

theorem hoist_eq_hoistedItems (passes : FlagTest → Bool) (items : List (Item α)) :
    hoist passes items = hoistedItems passes items := by
  simp [hoist, events_eq_itemEvents, Hoisting.foldl_itemEvents, Hoisting.keep, Hoisting.start]

mutual

/-- No group is conditional or has less than two members. -/
def Item.Hoisted : Item α → Prop
  | .term _ => True
  | .group head members => head.test? = none ∧ 2 ≤ members.length ∧ HoistedItems members

def HoistedItems : List (Item α) → Prop
  | [] => True
  | item :: items => item.Hoisted ∧ HoistedItems items

end

theorem hoistedItems_append {xs ys : List (Item α)} :
    HoistedItems (xs ++ ys) ↔ HoistedItems xs ∧ HoistedItems ys := by
  induction xs with
  | nil => simp [HoistedItems]
  | cons x xs ih => simp [HoistedItems, ih, and_assoc]

theorem hoistedItems_remainder {anyOf : Bool} {items : List (Item α)} (h : HoistedItems items) :
    HoistedItems (remainder anyOf items) := by
  match items with
  | [] => exact h
  | [_] => exact h
  | _ :: _ :: _ => cases anyOf <;> simpa [remainder, HoistedItems, Item.Hoisted, Head.test?] using h

mutual

theorem Item.hoisted_hoisted (passes : FlagTest → Bool) (item : Item α) :
    HoistedItems (item.hoisted passes) := by
  match item with
  | .term value => simp [Item.hoisted, HoistedItems, Item.Hoisted]
  | .group head members =>
    rw [Item.hoisted]
    split
    · exact hoistedItems_remainder (hoisted_hoistedItems passes members)
    · simp [HoistedItems]

theorem hoisted_hoistedItems (passes : FlagTest → Bool) (items : List (Item α)) :
    HoistedItems (hoistedItems passes items) := by
  match items with
  | [] => simp [hoistedItems, HoistedItems]
  | item :: items =>
    exact hoistedItems_append.mpr
      ⟨Item.hoisted_hoisted passes item, hoisted_hoistedItems passes items⟩

end

mutual

theorem Item.Hoisted.flattened_ne_nil (inAnyOf : Bool) (item : Item α) (h : item.Hoisted) :
    item.flattened inAnyOf ≠ [] := by
  match item with
  | .term value => simp [Item.flattened]
  | .group .allOf members =>
    have hl := HoistedItems.length_le_flattened false members h.2.2
    have h2 : 2 ≤ members.length := h.2.1
    cases inAnyOf
    · simp only [Item.flattened, Bool.false_eq_true, ↓reduceIte]
      exact List.ne_nil_of_length_pos (by omega)
    · simp [Item.flattened]
  | .group .anyOf members => simp [Item.flattened]
  | .group (.when test) members => simp [Item.flattened]

theorem HoistedItems.length_le_flattened (inAnyOf : Bool) (items : List (Item α))
    (h : HoistedItems items) : items.length ≤ (flattenedItems inAnyOf items).length := by
  match items with
  | [] => simp
  | item :: items =>
    have hi := List.length_pos_iff.mpr (Item.Hoisted.flattened_ne_nil inAnyOf item h.1)
    have hr := HoistedItems.length_le_flattened inAnyOf items h.2
    simp only [flattenedItems, List.length_cons, List.length_append]
    omega

end

theorem residue_of_two_le {outerAnyOf anyOf : Bool} {items : List (Item α)}
    (h : 2 ≤ items.length) :
    residue outerAnyOf anyOf items =
      if anyOf then [.group .anyOf items]
      else if outerAnyOf then [.group .allOf items] else items := by
  match items with
  | _ :: _ :: _ => simp [residue]

theorem Item.Hoisted.residue_flattened {outerAnyOf anyOf : Bool} {item : Item α}
    (h : item.Hoisted) :
    residue outerAnyOf anyOf (item.flattened anyOf) = item.flattened outerAnyOf := by
  match item with
  | .term value => rfl
  | .group .allOf members =>
    have hl := HoistedItems.length_le_flattened false members h.2.2
    have h2 : 2 ≤ members.length := h.2.1
    cases anyOf
    · simp only [Item.flattened, Bool.false_eq_true, ↓reduceIte]
      rw [residue_of_two_le (by omega)]
      simp
    · simp [Item.flattened, residue]
  | .group .anyOf members => simp [Item.flattened, residue]
  | .group (.when test) members => simp [Item.flattened, residue]

theorem HoistedItems.residue_flattened {outerAnyOf anyOf : Bool} {items : List (Item α)}
    (h : HoistedItems items) :
    residue outerAnyOf anyOf (flattenedItems anyOf items) =
      flattenedItems outerAnyOf (remainder anyOf items) := by
  match items with
  | [] => rfl
  | [item] =>
    have hi : item.Hoisted := h.1
    simpa [flattenedItems, remainder] using hi.residue_flattened
  | x :: y :: items =>
    have hl := HoistedItems.length_le_flattened anyOf _ h
    rw [residue_of_two_le (by simp only [List.length_cons] at hl; omega)]
    cases anyOf <;> cases outerAnyOf <;> simp [remainder, flattenedItems, Item.flattened]

mutual

theorem Item.flattened_hoisted (passes : FlagTest → Bool) (inAnyOf : Bool) (item : Item α) :
    flattenedItems inAnyOf (item.hoisted passes) = item.collapsed passes inAnyOf := by
  match item with
  | .term value => rfl
  | .group head members =>
    rw [Item.hoisted, Item.collapsed]
    split
    · rw [← (hoisted_hoistedItems passes members).residue_flattened,
        flattened_hoistedItems passes _ members]
    · rfl

theorem flattened_hoistedItems (passes : FlagTest → Bool) (inAnyOf : Bool)
    (items : List (Item α)) :
    flattenedItems inAnyOf (hoistedItems passes items) = collapsedMembers passes inAnyOf items := by
  match items with
  | [] => rfl
  | item :: items =>
    rw [hoistedItems, flattenedItems_append, Item.flattened_hoisted passes inAnyOf item,
      flattened_hoistedItems passes inAnyOf items, collapsedMembers]

end

theorem collapse_eq_collapsedMembers (passes : FlagTest → Bool) (items : List (Item α)) :
    collapse passes items = collapsedMembers passes false items := by
  rw [collapse, hoist_eq_hoistedItems, flatten_eq_flattenedItems, flattened_hoistedItems]

end DepSpec
