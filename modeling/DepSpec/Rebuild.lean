import DepSpec.Tour

/-! Items put together again from their events. Together with the tour this maps the terms of
items of any depth; every list of items is rebuilt from its own events. -/

namespace DepSpec

variable {α β : Type}

/-- Items being put together: those of the group that is open, last first, and around it the head
and the earlier items of each group that contains it. -/
structure Draft (α : Type) where
  placed : List (Item α)
  above : List (Head × List (Item α))

namespace Draft

def empty : Draft α := ⟨[], []⟩

def place (draft : Draft α) (item : Item α) : Draft α :=
  { draft with placed := item :: draft.placed }

def add? (draft : Draft α) : Event α → Option (Draft α)
  | .term value => some (draft.place (.term value))
  | .enter head _ => some ⟨[], (head, draft.placed) :: draft.above⟩
  | .leave =>
    match draft.above with
    | [] => none
    | (head, placed) :: above =>
      some ⟨.group head draft.placed.reverse :: placed, above⟩

def addAll? (draft : Draft α) : List (Event α) → Option (Draft α)
  | [] => some draft
  | event :: events =>
    match draft.add? event with
    | none => none
    | some draft => draft.addAll? events

def finish? (draft : Draft α) : Option (List (Item α)) :=
  if draft.above.isEmpty then some draft.placed.reverse else none

theorem addAll?_append (draft : Draft α) (es fs : List (Event α)) :
    draft.addAll? (es ++ fs) = (draft.addAll? es).bind fun draft => draft.addAll? fs := by
  induction es generalizing draft with
  | nil => rfl
  | cons e es ih => cases h : draft.add? e <;> simp [addAll?, h, ih]

mutual

theorem addAll?_events (draft : Draft α) (item : Item α) :
    draft.addAll? item.events = some (draft.place item) := by
  match item with
  | .term value => simp [Item.events, addAll?, add?]
  | .group head members =>
    simp [Item.events, addAll?, add?, addAll?_append, addAll?_itemEvents _ members, place]

theorem addAll?_itemEvents (draft : Draft α) (items : List (Item α)) :
    draft.addAll? (itemEvents items) = some ⟨items.reverse ++ draft.placed, draft.above⟩ := by
  match items with
  | [] => simp [itemEvents, addAll?]
  | item :: items =>
    simp [itemEvents, addAll?_append, addAll?_events _ item, addAll?_itemEvents _ items, place]

end

end Draft

def ofEvents? (events : List (Event α)) : Option (List (Item α)) :=
  (Draft.empty.addAll? events).bind Draft.finish?

theorem ofEvents?_events (items : List (Item α)) : ofEvents? (events items) = some items := by
  simp [ofEvents?, events_eq_itemEvents, Draft.addAll?_itemEvents, Draft.finish?, Draft.empty]

mutual

def Item.map (f : α → β) : Item α → Item β
  | .term value => .term (f value)
  | .group head members => .group head (Item.mapAll f members)

def Item.mapAll (f : α → β) : List (Item α) → List (Item β)
  | [] => []
  | item :: items => item.map f :: Item.mapAll f items

end

theorem Item.length_mapAll (f : α → β) (items : List (Item α)) :
    (Item.mapAll f items).length = items.length := by
  induction items with
  | nil => rfl
  | cons item items ih => simp [Item.mapAll, ih]

mutual

theorem Item.events_map (f : α → β) (item : Item α) :
    (item.map f).events = item.events.map (Event.map f) := by
  match item with
  | .term value => simp [Item.map, Item.events, Event.map]
  | .group head members =>
    simp [Item.map, Item.events, Event.map, Item.length_mapAll, itemEvents_mapAll f members]

theorem itemEvents_mapAll (f : α → β) (items : List (Item α)) :
    itemEvents (Item.mapAll f items) = (itemEvents items).map (Event.map f) := by
  match items with
  | [] => simp [Item.mapAll, itemEvents]
  | item :: items =>
    simp [Item.mapAll, itemEvents, Item.events_map f item, itemEvents_mapAll f items]

end

/-- Every term replaced, the groups kept; walks the items and never recurses into them. -/
def mapTerms (f : α → β) (items : List (Item α)) : List (Item β) :=
  (ofEvents? ((events items).map (Event.map f))).getD []

theorem mapTerms_eq_mapAll (f : α → β) (items : List (Item α)) :
    mapTerms f items = Item.mapAll f items := by
  have h := ofEvents?_events (Item.mapAll f items)
  rw [events_eq_itemEvents, itemEvents_mapAll, ← events_eq_itemEvents] at h
  simp [mapTerms, h]

end DepSpec
