import DepSpec.Flattened
import DepSpec.WellFormed

/-! The flat form of items keeps their terms, their tests and their well-formedness. Items are their
own flat form exactly when every conjunction in them stands directly in an any-of group. -/

namespace DepSpec

variable {α β : Type}

mutual

theorem Item.terms_flattened (inAnyOf : Bool) (item : Item α) :
    termsOfItems (item.flattened inAnyOf) = item.terms := by
  match item with
  | .term value => rfl
  | .group .allOf members =>
    have hm := termsOfItems_flattenedItems false members
    cases inAnyOf <;> simp [Item.flattened, termsOfItems, Item.terms, hm]
  | .group .anyOf members =>
    have hm := termsOfItems_flattenedItems true members
    simp [Item.flattened, termsOfItems, Item.terms, hm]
  | .group (.when test) members =>
    have hm := termsOfItems_flattenedItems false members
    simp [Item.flattened, termsOfItems, Item.terms, hm]

theorem termsOfItems_flattenedItems (inAnyOf : Bool) (items : List (Item α)) :
    termsOfItems (flattenedItems inAnyOf items) = termsOfItems items := by
  match items with
  | [] => rfl
  | item :: items =>
    rw [flattenedItems, termsOfItems_append, Item.terms_flattened inAnyOf item,
      termsOfItems_flattenedItems inAnyOf items, termsOfItems]

end

mutual

theorem Item.tests_flattened (inAnyOf : Bool) (item : Item α) :
    testsOfItems (item.flattened inAnyOf) = item.tests := by
  match item with
  | .term value => rfl
  | .group .allOf members =>
    have hm := testsOfItems_flattenedItems false members
    cases inAnyOf <;> simp [Item.flattened, testsOfItems, Item.tests, Head.test?, hm]
  | .group .anyOf members =>
    have hm := testsOfItems_flattenedItems true members
    simp [Item.flattened, testsOfItems, Item.tests, Head.test?, hm]
  | .group (.when test) members =>
    have hm := testsOfItems_flattenedItems false members
    simp [Item.flattened, testsOfItems, Item.tests, Head.test?, hm]

theorem testsOfItems_flattenedItems (inAnyOf : Bool) (items : List (Item α)) :
    testsOfItems (flattenedItems inAnyOf items) = testsOfItems items := by
  match items with
  | [] => rfl
  | item :: items =>
    rw [flattenedItems, testsOfItems_append, Item.tests_flattened inAnyOf item,
      testsOfItems_flattenedItems inAnyOf items, testsOfItems]

end

mutual

theorem Item.terms_map (f : α → β) (item : Item α) : (item.map f).terms = item.terms.map f := by
  match item with
  | .term value => rfl
  | .group head members => rw [Item.map, Item.terms, termsOfItems_mapAll f members, Item.terms]

theorem termsOfItems_mapAll (f : α → β) (items : List (Item α)) :
    termsOfItems (Item.mapAll f items) = (termsOfItems items).map f := by
  match items with
  | [] => rfl
  | item :: items =>
    rw [Item.mapAll, termsOfItems, Item.terms_map f item, termsOfItems_mapAll f items,
      termsOfItems, List.map_append]

end

mutual

theorem Item.tests_map (f : α → β) (item : Item α) : (item.map f).tests = item.tests := by
  match item with
  | .term value => rfl
  | .group head members => rw [Item.map, Item.tests, testsOfItems_mapAll f members, Item.tests]

theorem testsOfItems_mapAll (f : α → β) (items : List (Item α)) :
    testsOfItems (Item.mapAll f items) = testsOfItems items := by
  match items with
  | [] => rfl
  | item :: items =>
    rw [Item.mapAll, testsOfItems, Item.tests_map f item, testsOfItems_mapAll f items,
      testsOfItems]

end

mutual

theorem Item.map_id (item : Item α) : item.map id = item := by
  match item with
  | .term value => rfl
  | .group head members => rw [Item.map, mapAll_id members]

theorem Item.mapAll_id (items : List (Item α)) : Item.mapAll id items = items := by
  match items with
  | [] => rfl
  | item :: items => rw [Item.mapAll, Item.map_id item, mapAll_id items]

end

theorem WellFormedItems.flattened_ne_nil {inAnyOf : Bool} {items : List (Item α)}
    (h : WellFormedItems items) (hne : items ≠ []) : flattenedItems inAnyOf items ≠ [] := by
  intro he
  have ht := termsOfItems_flattenedItems inAnyOf items
  rw [he] at ht
  exact WellFormedItems.terms_ne_nil items hne h ht.symm

theorem Item.mapAll_ne_nil {f : α → β} {items : List (Item α)} (h : items ≠ []) :
    Item.mapAll f items ≠ [] := by
  intro he
  have hl := Item.length_mapAll f items
  rw [he] at hl
  exact h (List.length_eq_zero_iff.mp hl.symm)

mutual

theorem Item.WellFormed.map (f : α → β) (item : Item α) (h : item.WellFormed) :
    (item.map f).WellFormed := by
  match item with
  | .term value => trivial
  | .group head members =>
    rw [Item.WellFormed] at h
    rw [Item.map, Item.WellFormed]
    exact ⟨Item.mapAll_ne_nil h.1, WellFormedItems.mapAll f members h.2⟩

theorem WellFormedItems.mapAll (f : α → β) (items : List (Item α)) (h : WellFormedItems items) :
    WellFormedItems (Item.mapAll f items) := by
  match items with
  | [] => trivial
  | item :: items =>
    rw [WellFormedItems] at h
    exact ⟨Item.WellFormed.map f item h.1, WellFormedItems.mapAll f items h.2⟩

end

theorem Spec.map_eq (f : α → β) (spec : Spec α) :
    spec.map f = ⟨Item.mapAll f spec.items, spec.conditional⟩ := by
  rw [Spec.map, mapTerms_eq_mapAll]

theorem Spec.map_id (spec : Spec α) : spec.map id = spec := by
  rw [Spec.map_eq, Item.mapAll_id]

theorem Spec.WellFormed.map {spec : Spec α} (h : spec.WellFormed) (f : α → β) :
    (spec.map f).WellFormed := by
  rw [Spec.map_eq]
  refine ⟨WellFormedItems.mapAll f spec.items h.1, ?_⟩
  rw [testsOfItems_mapAll]
  exact h.2

mutual

/-- No conjunction stands anywhere but directly in an any-of group. -/
def Item.Flat (inAnyOf : Bool) : Item α → Prop
  | .term _ => True
  | .group .allOf members => inAnyOf = true ∧ FlatItems false members
  | .group .anyOf members => FlatItems true members
  | .group (.when _) members => FlatItems false members

def FlatItems (inAnyOf : Bool) : List (Item α) → Prop
  | [] => True
  | item :: items => item.Flat inAnyOf ∧ FlatItems inAnyOf items

end

theorem flatItems_append {inAnyOf : Bool} {xs ys : List (Item α)} :
    FlatItems inAnyOf (xs ++ ys) ↔ FlatItems inAnyOf xs ∧ FlatItems inAnyOf ys := by
  induction xs with
  | nil => simp [FlatItems]
  | cons x xs ih => simp [FlatItems, ih, and_assoc]

mutual

theorem Item.flat_flattened (inAnyOf : Bool) (item : Item α) :
    FlatItems inAnyOf (item.flattened inAnyOf) := by
  match item with
  | .term value => simp [Item.flattened, FlatItems, Item.Flat]
  | .group .allOf members =>
    have hm := flat_flattenedItems false members
    cases inAnyOf <;> simp [Item.flattened, FlatItems, Item.Flat, hm]
  | .group .anyOf members =>
    have hm := flat_flattenedItems true members
    simp [Item.flattened, FlatItems, Item.Flat, hm]
  | .group (.when test) members =>
    have hm := flat_flattenedItems false members
    simp [Item.flattened, FlatItems, Item.Flat, hm]

theorem flat_flattenedItems (inAnyOf : Bool) (items : List (Item α)) :
    FlatItems inAnyOf (flattenedItems inAnyOf items) := by
  match items with
  | [] => trivial
  | item :: items =>
    exact flatItems_append.mpr
      ⟨Item.flat_flattened inAnyOf item, flat_flattenedItems inAnyOf items⟩

end

mutual

theorem Item.Flat.flattened_eq {inAnyOf : Bool} (item : Item α) (h : item.Flat inAnyOf) :
    item.flattened inAnyOf = [item] := by
  match item with
  | .term value => rfl
  | .group .allOf members =>
    rw [Item.Flat] at h
    obtain ⟨rfl, hm⟩ := h
    simp [Item.flattened, FlatItems.flattened_eq members hm]
  | .group .anyOf members =>
    rw [Item.Flat] at h
    simp [Item.flattened, FlatItems.flattened_eq members h]
  | .group (.when test) members =>
    rw [Item.Flat] at h
    simp [Item.flattened, FlatItems.flattened_eq members h]

theorem FlatItems.flattened_eq {inAnyOf : Bool} (items : List (Item α))
    (h : FlatItems inAnyOf items) : flattenedItems inAnyOf items = items := by
  match items with
  | [] => rfl
  | item :: items =>
    rw [FlatItems] at h
    rw [flattenedItems, Item.Flat.flattened_eq item h.1, FlatItems.flattened_eq items h.2]
    rfl

end

theorem flattenedItems_eq_self_iff {inAnyOf : Bool} {items : List (Item α)} :
    flattenedItems inAnyOf items = items ↔ FlatItems inAnyOf items := by
  constructor
  · intro h
    rw [← h]
    exact flat_flattenedItems inAnyOf items
  · exact FlatItems.flattened_eq items

theorem Spec.flattened_eq_self_iff {spec : Spec α} :
    spec.flattened = spec ↔ FlatItems false spec.items := by
  rw [← flattenedItems_eq_self_iff]
  constructor
  · exact congrArg Spec.items
  · intro h
    rw [Spec.flattened, h]

end DepSpec
