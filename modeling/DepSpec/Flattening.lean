import DepSpec.Spec

/-! Flattening: every all-of group that is not directly inside an any-of group gives way to its
members. -/

namespace DepSpec

variable {α : Type}

/-- A group around the one being flattened. The members of a joined group are gathered with those
around it, those of any other apart from them. -/
inductive Surrounding (α : Type) where
  | joined
  | apart (head : Head) (inAnyOf : Bool) (gathered : List (Item α))

/-- Flattening under way: whether the innermost group is an any-of group, its members so far, last
first, and what surrounds it. -/
structure Flattening (α : Type) where
  inAnyOf : Bool
  gathered : List (Item α)
  above : List (Surrounding α)

namespace Flattening

def start : Flattening α := ⟨false, [], []⟩

def gather (state : Flattening α) (items : List (Item α)) : Flattening α :=
  { state with gathered := items.reverse ++ state.gathered }

def add (state : Flattening α) : Event α → Flattening α
  | .term value => state.gather [.term value]
  | .enter head _ =>
    if head = .allOf ∧ state.inAnyOf = false then
      { state with above := .joined :: state.above }
    else
      ⟨head.isAnyOf, [], .apart head state.inAnyOf state.gathered :: state.above⟩
  | .leave =>
    match state.above with
    | [] => state
    | .joined :: above => { state with above := above }
    | .apart head inAnyOf gathered :: above =>
      ⟨inAnyOf, .group head state.gathered.reverse :: gathered, above⟩

end Flattening

def flatten (items : List (Item α)) : List (Item α) :=
  ((events items).foldl Flattening.add Flattening.start).gathered.reverse

end DepSpec
