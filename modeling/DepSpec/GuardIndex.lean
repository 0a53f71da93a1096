import DepSpec.Spec
import Std.Data.HashMap
import Std.Data.HashSet

/-! The guard index of a specification: for each term that is only required under conditions, the
conditions of each of its occurrences. -/

namespace DepSpec

variable {α : Type}

/-- The tests of the conditionals around an event, innermost first, those around each group that
contains it, and the terms met so far with their tests, outermost first. -/
structure GuardWalk (α : Type) where
  guards : List FlagTest
  above : List (List FlagTest)
  found : List (α × List FlagTest)

namespace GuardWalk

def start : GuardWalk α := ⟨[], [], []⟩

def add (walk : GuardWalk α) : Event α → GuardWalk α
  | .term value => { walk with found := (value, walk.guards.reverse) :: walk.found }
  | .enter head _ =>
    { walk with guards := head.test?.toList ++ walk.guards, above := walk.guards :: walk.above }
  | .leave =>
    match walk.above with
    | [] => walk
    | guards :: above => { walk with guards := guards, above := above }

end GuardWalk

/-- Every term in order with the tests of the conditionals it is in, outermost first. -/
def occurrences (items : List (Item α)) : List (α × List FlagTest) :=
  ((events items).foldl GuardWalk.add GuardWalk.start).found.reverse

variable [BEq α] [Hashable α]

abbrev GuardIndex (α : Type) [BEq α] [Hashable α] := Std.HashMap α (List Guard)

namespace GuardIndex

def record (index : GuardIndex α) (value : α) (guard : Guard) : GuardIndex α :=
  index.alter value fun guards? => some (guard :: guards?.getD [])

/-- Leaves out the terms that occur without any guard. -/
def ofOccurrences (found : List (α × List FlagTest)) : GuardIndex α :=
  let required := Std.HashSet.ofList ((found.filter fun (_, guards) => guards.isEmpty).map Prod.fst)
  found.foldr
    (fun (value, guards) index =>
      if required.contains value then index
      else index.record value (.conjunction (guards.map .test)))
    ∅

/-- The guards of the occurrences of a term, in order. -/
def guardsOf (value : α) (found : List (α × List FlagTest)) : List Guard :=
  (found.filter fun occurrence => occurrence.1 == value).map fun occurrence =>
    .conjunction (occurrence.2.map .test)

variable [LawfulBEq α]

theorem getElem?_record (index : GuardIndex α) (value key : α) (guard : Guard) :
    (index.record value guard)[key]? =
      if value == key then some (guard :: index[key]?.getD []) else index[key]? := by
  rw [record, Std.HashMap.getElem?_alter]
  by_cases h : value = key <;> simp [h]

omit [Hashable α] in
theorem guardsOf_cons (value : α) (occurrence : α × List FlagTest)
    (found : List (α × List FlagTest)) :
    guardsOf value (occurrence :: found) =
      if occurrence.1 == value then
        .conjunction (occurrence.2.map .test) :: guardsOf value found
      else guardsOf value found := by
  by_cases h : occurrence.1 = value <;> simp [guardsOf, h]

theorem getElem?_foldr_record (required : Std.HashSet α) (found : List (α × List FlagTest))
    (value : α) :
    (found.foldr
      (fun (value, guards) index =>
        if required.contains value then index
        else index.record value (.conjunction (guards.map .test)))
      (∅ : GuardIndex α))[value]? =
      if required.contains value ∨ guardsOf value found = [] then none
      else some (guardsOf value found) := by
  induction found with
  | nil => simp [guardsOf]
  | cons occurrence found ih =>
    rw [guardsOf_cons]
    simp only [List.foldr_cons]
    by_cases hv : occurrence.1 = value
    · subst hv
      by_cases hr : required.contains occurrence.1 = true
      · rw [if_pos hr, ih]
        simp only [hr, true_or, if_true]
      · rw [if_neg hr, getElem?_record, ih]
        by_cases hg : guardsOf occurrence.1 found = [] <;> simp [hr, hg]
    · by_cases hr : required.contains occurrence.1 = true
      · rw [if_pos hr, ih]
        simp [hv]
      · rw [if_neg hr, getElem?_record, ih]
        simp [hv]

/-- A term has the guards of its occurrences, unless one of them is without any. -/
theorem getElem?_ofOccurrences (found : List (α × List FlagTest)) (value : α) :
    (ofOccurrences found)[value]? =
      if (value, []) ∈ found ∨ guardsOf value found = [] then none
      else some (guardsOf value found) := by
  have hr : (Std.HashSet.ofList
      ((found.filter fun (_, guards) => guards.isEmpty).map Prod.fst)).contains value = true ↔
        (value, []) ∈ found := by
    simp [Std.HashSet.contains_ofList]
  simp only [ofOccurrences, getElem?_foldr_record, hr]

end GuardIndex

def Spec.guardIndex (spec : Spec α) : GuardIndex α :=
  if spec.conditional then .ofOccurrences (occurrences spec.items) else ∅

end DepSpec
