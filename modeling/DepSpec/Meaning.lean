import DepSpec.Collapsed
import DepSpec.Contents

/-! What a specification asks for when some conditionals pass and some terms are satisfied. Items
without any present term ask for nothing; otherwise they are true or false. -/

namespace DepSpec

variable {α : Type}

/-- Joins what two neighbours in a group ask for. An any-of group asks for one of its present
members, any other group for each of them. -/
def joinTruth (anyOf : Bool) : Option Bool → Option Bool → Option Bool
  | none, b => b
  | a, none => a
  | some a, some b => some (if anyOf then a || b else a && b)

mutual

def Item.truth (passes : FlagTest → Bool) (satisfied : α → Bool) : Item α → Option Bool
  | .term value => some (satisfied value)
  | .group head members =>
    if head.passes passes then truthOfItems passes satisfied head.isAnyOf members else none

def truthOfItems (passes : FlagTest → Bool) (satisfied : α → Bool) (anyOf : Bool) :
    List (Item α) → Option Bool
  | [] => none
  | item :: items =>
    joinTruth anyOf (item.truth passes satisfied) (truthOfItems passes satisfied anyOf items)

end

def Spec.truth (passes : FlagTest → Bool) (satisfied : α → Bool) (spec : Spec α) : Option Bool :=
  truthOfItems passes satisfied false spec.items

mutual

/-- The terms that are in no conditional that fails to pass. -/
def Item.survivors (passes : FlagTest → Bool) : Item α → List α
  | .term value => [value]
  | .group head members => if head.passes passes then survivorsOfItems passes members else []

def survivorsOfItems (passes : FlagTest → Bool) : List (Item α) → List α
  | [] => []
  | item :: items => item.survivors passes ++ survivorsOfItems passes items

end

theorem termsOfItems_residue (outerAnyOf anyOf : Bool) (items : List (Item α)) :
    termsOfItems (residue outerAnyOf anyOf items) = termsOfItems items := by
  match items with
  | [] => rfl
  | [.term value] => rfl
  | [.group .allOf members] => cases outerAnyOf <;> simp [residue, termsOfItems, Item.terms]
  | [.group .anyOf members] => rfl
  | [.group (.when test) members] => rfl
  | _ :: _ :: _ =>
    cases outerAnyOf <;> cases anyOf <;> simp [residue, termsOfItems, Item.terms]

mutual

theorem Item.terms_collapsed (passes : FlagTest → Bool) (anyOf : Bool) (item : Item α) :
    termsOfItems (item.collapsed passes anyOf) = item.survivors passes := by
  match item with
  | .term value => rfl
  | .group head members =>
    rw [Item.collapsed, Item.survivors]
    split
    · rw [termsOfItems_residue, terms_collapsedMembers passes _ members]
    · rfl

theorem terms_collapsedMembers (passes : FlagTest → Bool) (anyOf : Bool) (items : List (Item α)) :
    termsOfItems (collapsedMembers passes anyOf items) = survivorsOfItems passes items := by
  match items with
  | [] => rfl
  | item :: items =>
    simp [collapsedMembers, survivorsOfItems, termsOfItems_append,
      Item.terms_collapsed passes anyOf item, terms_collapsedMembers passes anyOf items]

end

theorem terms_collapse (passes : FlagTest → Bool) (items : List (Item α)) :
    termsOfItems (collapse passes items) = survivorsOfItems passes items := by
  rw [collapse_eq_collapsedMembers, terms_collapsedMembers]

theorem joinTruth_none (anyOf : Bool) (a : Option Bool) : joinTruth anyOf a none = a := by
  cases a <;> rfl

theorem joinTruth_assoc (anyOf : Bool) (a b c : Option Bool) :
    joinTruth anyOf (joinTruth anyOf a b) c = joinTruth anyOf a (joinTruth anyOf b c) := by
  cases a <;> cases b <;> cases c <;> cases anyOf <;>
    simp [joinTruth, Bool.or_assoc, Bool.and_assoc]

theorem truthOfItems_append (passes : FlagTest → Bool) (satisfied : α → Bool) (anyOf : Bool)
    (xs ys : List (Item α)) :
    truthOfItems passes satisfied anyOf (xs ++ ys) =
      joinTruth anyOf (truthOfItems passes satisfied anyOf xs)
        (truthOfItems passes satisfied anyOf ys) := by
  induction xs with
  | nil => cases h : truthOfItems passes satisfied anyOf ys <;> simp [truthOfItems, joinTruth, h]
  | cons x xs ih => simp [truthOfItems, ih, joinTruth_assoc]

theorem truthOfItems_residue (passes : FlagTest → Bool) (satisfied : α → Bool)
    (outerAnyOf anyOf : Bool) (items : List (Item α)) :
    truthOfItems passes satisfied outerAnyOf (residue outerAnyOf anyOf items) =
      truthOfItems passes satisfied anyOf items := by
  match items with
  | [] => rfl
  | [.term value] => rfl
  | [.group .allOf members] =>
    cases outerAnyOf <;>
      simp [residue, truthOfItems, Item.truth, joinTruth_none, Head.passes, Head.isAnyOf]
  | [.group .anyOf members] => simp [residue, truthOfItems, joinTruth_none]
  | [.group (.when test) members] => simp [residue, truthOfItems, joinTruth_none]
  | _ :: _ :: _ =>
    cases outerAnyOf <;> cases anyOf <;>
      simp [residue, truthOfItems, Item.truth, joinTruth_none, Head.passes, Head.isAnyOf]

mutual

/-- What is left asks for the same, whatever conditionals are asked about afterwards. -/
theorem Item.truth_collapsed (passes later : FlagTest → Bool) (satisfied : α → Bool)
    (anyOf : Bool) (item : Item α) :
    truthOfItems later satisfied anyOf (item.collapsed passes anyOf) =
      item.truth passes satisfied := by
  match item with
  | .term value => simp [Item.collapsed, truthOfItems, Item.truth, joinTruth_none]
  | .group head members =>
    rw [Item.collapsed, Item.truth]
    split
    · rw [truthOfItems_residue, truth_collapsedMembers passes later satisfied _ members]
    · rfl

theorem truth_collapsedMembers (passes later : FlagTest → Bool) (satisfied : α → Bool)
    (anyOf : Bool) (items : List (Item α)) :
    truthOfItems later satisfied anyOf (collapsedMembers passes anyOf items) =
      truthOfItems passes satisfied anyOf items := by
  match items with
  | [] => rfl
  | item :: items =>
    rw [collapsedMembers, truthOfItems_append, Item.truth_collapsed passes later satisfied _ item,
      truth_collapsedMembers passes later satisfied _ items, truthOfItems]

end

theorem truth_collapse (passes later : FlagTest → Bool) (satisfied : α → Bool)
    (items : List (Item α)) :
    truthOfItems later satisfied false (collapse passes items) =
      truthOfItems passes satisfied false items := by
  rw [collapse_eq_collapsedMembers, truth_collapsedMembers]

end DepSpec
