import DepSpec.Flattening

/-! Evaluation of a specification under a flag selection: the flags that are enabled, and the flags
to which evaluation may be restricted. Conditionals that do not pass lose their members, the others
become conjunctions, and what is left is collapsed: empty groups vanish, a group of one member gives
way to it, and a conjunction inside a conjunction dissolves into it. -/

namespace DepSpec

structure FlagSelection where
  enabled : List String
  restriction : Option (List String)
deriving DecidableEq

namespace FlagSelection

def default : FlagSelection := ⟨[], none⟩

/-- The names of each list in order and without repetition. -/
def ofNames (enabled : List String) (restriction : Option (List String)) : FlagSelection :=
  ⟨sortedNames enabled, restriction.map sortedNames⟩

/-- Without a restriction every flag counts. -/
def counts (selection : FlagSelection) (flag : String) : Bool :=
  match selection.restriction with
  | none => true
  | some flags => flags.contains flag

/-- A flag that does not count never shuts anything out, whatever the polarity. -/
def passes (selection : FlagSelection) (test : FlagTest) : Bool :=
  !selection.counts test.flag || test.holds selection.enabled

end FlagSelection

variable {α : Type}

def Head.passes (passes : FlagTest → Bool) : Head → Bool
  | .when test => passes test
  | _ => true

theorem Head.passes_congr {p q : FlagTest → Bool} {head : Head}
    (h : ∀ test ∈ head.test?, p test = q test) : head.passes p = head.passes q := by
  cases head with
  | allOf => rfl
  | anyOf => rfl
  | when test => exact h test rfl

/-- A group whose members are being decided: whether they count, whether it is an any-of group, and
what was left before it in the group around it, last first. -/
structure Undecided (α : Type) where
  counts : Bool
  anyOf : Bool
  before : List (Item α)

/-- What is left so far of the innermost group, last first, and the groups that are undecided. -/
structure Hoisting (α : Type) where
  left : List (Item α)
  above : List (Undecided α)

/-- What is left of a group with the given members. -/
def remainder (anyOf : Bool) : List (Item α) → List (Item α)
  | [] => []
  | [item] => [item]
  | items => [.group (if anyOf then .anyOf else .allOf) items]

namespace Hoisting

def start : Hoisting α := ⟨[], []⟩

def keep (state : Hoisting α) (items : List (Item α)) : Hoisting α :=
  { state with left := items.reverse ++ state.left }

def add (passes : FlagTest → Bool) (state : Hoisting α) : Event α → Hoisting α
  | .term value => state.keep [.term value]
  | .enter head _ => ⟨[], ⟨head.passes passes, head.isAnyOf, state.left⟩ :: state.above⟩
  | .leave =>
    match state.above with
    | [] => state
    | group :: above =>
      let outer : Hoisting α := ⟨group.before, above⟩
      if group.counts then outer.keep (remainder group.anyOf state.left.reverse) else outer

end Hoisting

/-- Decides the conditionals and removes the groups with less than two members. -/
def hoist (passes : FlagTest → Bool) (items : List (Item α)) : List (Item α) :=
  ((events items).foldl (Hoisting.add passes) Hoisting.start).left.reverse

def collapse (passes : FlagTest → Bool) (items : List (Item α)) : List (Item α) :=
  flatten (hoist passes items)

/-- A specification without conditionals is left as it is, nested or not. -/
def Spec.evaluate (selection : FlagSelection) (spec : Spec α) : Spec α :=
  if spec.conditional then ⟨collapse selection.passes spec.items, false⟩ else spec

end DepSpec
