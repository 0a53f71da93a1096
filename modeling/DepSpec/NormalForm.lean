import DepSpec.Collapsed

/-! The normal form of collapsed items: no conditional, no group with less than two members, and no
conjunction inside a conjunction. Collapsing leads to it, and so do single steps: conditionals are
pruned first; then empty groups are deleted, groups of one member are replaced by it and
conjunctions are spliced, anywhere and in any order. -/

namespace DepSpec

variable {α : Type}

mutual

def Item.Normal (inAnyOf : Bool) : Item α → Prop
  | .term _ => True
  | .group .allOf members => inAnyOf = true ∧ 2 ≤ members.length ∧ NormalItems false members
  | .group .anyOf members => 2 ≤ members.length ∧ NormalItems true members
  | .group (.when _) _ => False

def NormalItems (inAnyOf : Bool) : List (Item α) → Prop
  | [] => True
  | item :: items => item.Normal inAnyOf ∧ NormalItems inAnyOf items

end

theorem normalItems_iff {inAnyOf : Bool} {items : List (Item α)} :
    NormalItems inAnyOf items ↔ ∀ item ∈ items, item.Normal inAnyOf := by
  induction items with
  | nil => simp [NormalItems]
  | cons item items ih => simp [NormalItems, ih]

theorem Item.Normal.members {inAnyOf : Bool} {head : Head} {members : List (Item α)}
    (h : (Item.group head members).Normal inAnyOf) :
    2 ≤ members.length ∧ NormalItems head.isAnyOf members := by
  cases head with
  | allOf => exact h.2
  | anyOf => exact h
  | when test => exact absurd h (by simp [Item.Normal])

theorem normalItems_append {inAnyOf : Bool} {xs ys : List (Item α)} :
    NormalItems inAnyOf (xs ++ ys) ↔ NormalItems inAnyOf xs ∧ NormalItems inAnyOf ys := by
  induction xs with
  | nil => simp [NormalItems]
  | cons x xs ih => simp [NormalItems, ih, and_assoc]

theorem normalItems_residue {outerAnyOf anyOf : Bool} {items : List (Item α)}
    (h : NormalItems anyOf items) : NormalItems outerAnyOf (residue outerAnyOf anyOf items) := by
  match items with
  | [] => simp [residue, NormalItems]
  | [.term value] => simp [residue, NormalItems, Item.Normal]
  | [.group .allOf members] =>
    simp only [NormalItems, Item.Normal, and_true] at h
    cases outerAnyOf <;> simp [residue, NormalItems, Item.Normal, h]
  | [.group .anyOf members] => simpa [residue, NormalItems, Item.Normal] using h
  | [.group (.when test) members] => simp [NormalItems, Item.Normal] at h
  | _ :: _ :: _ =>
    cases outerAnyOf <;> cases anyOf <;> simpa [residue, NormalItems, Item.Normal] using h

mutual

theorem Item.normal_collapsed (passes : FlagTest → Bool) (anyOf : Bool) (item : Item α) :
    NormalItems anyOf (item.collapsed passes anyOf) := by
  match item with
  | .term value => simp [Item.collapsed, NormalItems, Item.Normal]
  | .group head members =>
    rw [Item.collapsed]
    split
    · exact normalItems_residue (normal_collapsedMembers passes _ members)
    · simp [NormalItems]

theorem normal_collapsedMembers (passes : FlagTest → Bool) (anyOf : Bool)
    (items : List (Item α)) : NormalItems anyOf (collapsedMembers passes anyOf items) := by
  match items with
  | [] => simp [collapsedMembers, NormalItems]
  | item :: items =>
    exact normalItems_append.mpr
      ⟨Item.normal_collapsed passes anyOf item, normal_collapsedMembers passes anyOf items⟩

end

theorem normal_collapse (passes : FlagTest → Bool) (items : List (Item α)) :
    NormalItems false (collapse passes items) := by
  rw [collapse_eq_collapsedMembers]
  exact normal_collapsedMembers passes false items

mutual

/-- Items in normal form are not changed by collapsing. -/
theorem Item.Normal.collapsed_eq {passes : FlagTest → Bool} {anyOf : Bool} (item : Item α)
    (h : item.Normal anyOf) : item.collapsed passes anyOf = [item] := by
  match item with
  | .term value => rfl
  | .group .allOf members =>
    obtain ⟨rfl, hl, hm⟩ := (by simpa [Item.Normal] using h : _ ∧ _ ∧ _)
    rw [Item.collapsed, if_pos (show Head.allOf.passes passes = true from rfl),
      show Head.allOf.isAnyOf = false from rfl, NormalItems.collapsed_eq members hm]
    match members with
    | _ :: _ :: _ => simp [residue]
  | .group .anyOf members =>
    obtain ⟨hl, hm⟩ := (by simpa [Item.Normal] using h : _ ∧ _)
    rw [Item.collapsed, if_pos (show Head.anyOf.passes passes = true from rfl),
      show Head.anyOf.isAnyOf = true from rfl, NormalItems.collapsed_eq members hm]
    match members with
    | _ :: _ :: _ => simp [residue]
  | .group (.when test) members => simp [Item.Normal] at h

theorem NormalItems.collapsed_eq {passes : FlagTest → Bool} {anyOf : Bool}
    (items : List (Item α)) (h : NormalItems anyOf items) :
    collapsedMembers passes anyOf items = items := by
  match items with
  | [] => rfl
  | item :: items =>
    obtain ⟨hi, hr⟩ := (by simpa [NormalItems] using h : _ ∧ _)
    rw [collapsedMembers, Item.Normal.collapsed_eq item hi, NormalItems.collapsed_eq items hr]
    rfl

end

mutual

/-- Conditionals that pass become conjunctions, the others are deleted. -/
def Item.pruned (passes : FlagTest → Bool) : Item α → List (Item α)
  | .term value => [.term value]
  | .group (.when test) members =>
    if passes test then [.group .allOf (prunedItems passes members)] else []
  | .group head members => [.group head (prunedItems passes members)]

def prunedItems (passes : FlagTest → Bool) : List (Item α) → List (Item α)
  | [] => []
  | item :: items => item.pruned passes ++ prunedItems passes items

end

/-- One step among the members of a group, which may be an any-of group. -/
inductive Simplifies : Bool → List (Item α) → List (Item α) → Prop
  | delete {anyOf : Bool} (xs ys : List (Item α)) (head : Head) :
      Simplifies anyOf (xs ++ .group head [] :: ys) (xs ++ ys)
  | replace {anyOf : Bool} (xs ys : List (Item α)) (head : Head) (member : Item α) :
      Simplifies anyOf (xs ++ .group head [member] :: ys) (xs ++ member :: ys)
  | splice (xs ys members : List (Item α)) :
      Simplifies false (xs ++ .group .allOf members :: ys) (xs ++ (members ++ ys))
  | inside {anyOf : Bool} (xs ys : List (Item α)) (head : Head) {ms ns : List (Item α)}
      (h : Simplifies head.isAnyOf ms ns) :
      Simplifies anyOf (xs ++ .group head ms :: ys) (xs ++ .group head ns :: ys)

theorem Simplifies.around {anyOf : Bool} {ms ns : List (Item α)} (h : Simplifies anyOf ms ns)
    (xs ys : List (Item α)) : Simplifies anyOf (xs ++ ms ++ ys) (xs ++ ns ++ ys) := by
  cases h with
  | delete us vs head =>
    simpa using (delete (xs ++ us) (vs ++ ys) head : Simplifies anyOf _ _)
  | replace us vs head member =>
    simpa using (replace (xs ++ us) (vs ++ ys) head member : Simplifies anyOf _ _)
  | splice us vs members => simpa using splice (xs ++ us) (vs ++ ys) members
  | inside us vs head h =>
    simpa using (inside (xs ++ us) (vs ++ ys) head h : Simplifies anyOf _ _)

end DepSpec
