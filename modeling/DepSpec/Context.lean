import DepSpec.Collapsed
import DepSpec.Places

/-! Items around a hole. Whatever stands somewhere fills the hole of the items around it. What the
whole collapses to depends on the hole only through what its items collapse to there. -/

namespace DepSpec

variable {α : Type}

/-- The items before and after the hole, or before and after the group that the hole is in. -/
inductive Context (α : Type) where
  | here (before after : List (Item α))
  | inside (before : List (Item α)) (head : Head) (context : Context α) (after : List (Item α))

namespace Context

def fill (items : List (Item α)) : Context α → List (Item α)
  | here before after => before ++ items ++ after
  | inside before head context after => before ++ .group head (context.fill items) :: after

/-- The address of the first item in the hole. -/
def address : Context α → List Nat
  | here before _ => [before.length]
  | inside before _ context _ => before.length :: context.address

/-- Whether the hole is directly in an any-of group, given this of the outermost items. -/
def inAnyOf (outer : Bool) : Context α → Bool
  | here _ _ => outer
  | inside _ head context _ => context.inAnyOf head.isAnyOf

end Context

theorem exists_append_of_getElem? {items : List (Item α)} {n : Nat} {item : Item α}
    (h : items[n]? = some item) :
    ∃ before after, before.length = n ∧ before ++ item :: after = items := by
  obtain ⟨hn, rfl⟩ := List.getElem?_eq_some_iff.mp h
  refine ⟨items.take n, items.drop (n + 1), List.length_take_of_le (by omega), ?_⟩
  rw [List.getElem_cons_drop, List.take_append_drop]

namespace Context

theorem standsAt_fill (context : Context α) (item : Item α) :
    ∃ tests, StandsAt (context.fill [item]) context.address tests item := by
  induction context with
  | here before after => exact ⟨[], .here (by simp [fill])⟩
  | inside before head context after ih =>
    obtain ⟨tests, h⟩ := ih
    exact ⟨head.test?.toList ++ tests, .inside (by simp [fill]) h⟩

theorem exists_fill_of_standsAt {items : List (Item α)} {address : List Nat}
    {tests : List FlagTest} {item : Item α} (h : StandsAt items address tests item) :
    ∃ context : Context α, context.address = address ∧ context.fill [item] = items := by
  induction h with
  | here h =>
    obtain ⟨before, after, rfl, rfl⟩ := exists_append_of_getElem? h
    exact ⟨.here before after, rfl, by simp [fill]⟩
  | @inside items members n address tests head item h hm ih =>
    obtain ⟨before, after, rfl, rfl⟩ := exists_append_of_getElem? h
    obtain ⟨context, rfl, rfl⟩ := ih
    exact ⟨.inside before head context after, rfl, rfl⟩

/-- The contexts of an item are its places. -/
theorem exists_fill_iff_standsAt {items : List (Item α)} {address : List Nat} {item : Item α} :
    (∃ context : Context α, context.address = address ∧ context.fill [item] = items) ↔
      ∃ tests, StandsAt items address tests item := by
  constructor
  · rintro ⟨context, rfl, rfl⟩
    exact context.standsAt_fill item
  · rintro ⟨tests, h⟩
    exact exists_fill_of_standsAt h

theorem subset_testsOfItems_fill (context : Context α) (items : List (Item α)) :
    testsOfItems items ⊆ testsOfItems (context.fill items) := by
  induction context with
  | here before after =>
    intro test ht
    simp [fill, testsOfItems_append, ht]
  | inside before head context after ih =>
    intro test ht
    simp [fill, testsOfItems_append, testsOfItems, Item.tests, ih ht]

theorem collapsedMembers_fill_congr {passes : FlagTest → Bool} {outer : Bool}
    {xs ys : List (Item α)} (context : Context α)
    (h : collapsedMembers passes (context.inAnyOf outer) xs =
      collapsedMembers passes (context.inAnyOf outer) ys) :
    collapsedMembers passes outer (context.fill xs) =
      collapsedMembers passes outer (context.fill ys) := by
  induction context generalizing outer with
  | here before after =>
    rw [inAnyOf] at h
    simp only [fill, collapsedMembers_append, h]
  | inside before head context after ih =>
    have hm := ih h
    simp only [fill, collapsedMembers_append, collapsedMembers, Item.collapsed, hm]

end Context

end DepSpec
