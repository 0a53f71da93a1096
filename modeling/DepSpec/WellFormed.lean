import DepSpec.Contents

/-! Well-formed items have no empty group at any depth. Whatever the constructors make of
well-formed items is well formed. -/

namespace DepSpec

variable {α : Type}

mutual

def Item.WellFormed : Item α → Prop
  | .term _ => True
  | .group _ members => members ≠ [] ∧ WellFormedItems members

def WellFormedItems : List (Item α) → Prop
  | [] => True
  | item :: items => item.WellFormed ∧ WellFormedItems items

end

/-- The items are well formed, and the mark tells whether a conditional occurs among them. -/
def Spec.WellFormed (spec : Spec α) : Prop :=
  WellFormedItems spec.items ∧ spec.conditional = !(testsOfItems spec.items).isEmpty

theorem wellFormedItems_iff {items : List (Item α)} :
    WellFormedItems items ↔ ∀ item ∈ items, item.WellFormed := by
  induction items with
  | nil => simp [WellFormedItems]
  | cons item items ih => simp [WellFormedItems, ih]

theorem WellFormedItems.append {xs ys : List (Item α)} (hx : WellFormedItems xs)
    (hy : WellFormedItems ys) : WellFormedItems (xs ++ ys) := by
  rw [wellFormedItems_iff] at *
  intro item hi
  rcases List.mem_append.mp hi with h | h
  · exact hx item h
  · exact hy item h

theorem Item.WellFormed.members {item : Item α} (h : item.WellFormed) :
    WellFormedItems item.members := by
  cases item with
  | term value => simp [Item.members, WellFormedItems]
  | group head members =>
    rw [Item.WellFormed] at h
    exact h.2

theorem Item.wellFormed_of_group? {head : Head} {members : List (Item α)} {item : Item α}
    (hm : WellFormedItems members) (h : group? head members = some item) : item.WellFormed := by
  cases members with
  | nil => simp [group?] at h
  | cons member members =>
    obtain rfl : Item.group head (member :: members) = item := by simpa [group?] using h
    simpa [Item.WellFormed] using hm

theorem Item.wellFormed_of_conditional? {guard : Guard} {members : List (Item α)}
    {item : Item α} (hm : WellFormedItems members)
    (h : conditional? guard members = some item) : item.WellFormed := by
  cases guard with
  | test t => exact wellFormed_of_group? hm h
  | all parts => simp [conditional?] at h

theorem Spec.wellFormed_empty : (Spec.empty : Spec α).WellFormed :=
  ⟨trivial, rfl⟩

theorem Spec.wellFormed_ofItems {items : List (Item α)} (h : WellFormedItems items) :
    (Spec.ofItems items).WellFormed :=
  ⟨h, conditional_ofItems items⟩

mutual

/-- Every group that is not empty leads to a term. -/
theorem Item.WellFormed.terms_ne_nil (item : Item α) (h : item.WellFormed) : item.terms ≠ [] := by
  match item with
  | .term value => simp [Item.terms]
  | .group head members =>
    rw [Item.WellFormed] at h
    simpa [Item.terms] using WellFormedItems.terms_ne_nil members h.1 h.2

theorem WellFormedItems.terms_ne_nil (items : List (Item α)) (hne : items ≠ [])
    (h : WellFormedItems items) : termsOfItems items ≠ [] := by
  match items with
  | [] => exact absurd rfl hne
  | item :: items =>
    have hi := Item.WellFormed.terms_ne_nil item (by simpa [WellFormedItems] using h.1)
    simp [termsOfItems, hi]

end

end DepSpec
