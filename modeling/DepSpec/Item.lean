import DepSpec.Guard

/-! Items of a dependency specification: terms of any type, and groups of items under a head. -/

namespace DepSpec

inductive Head where
  | allOf
  | anyOf
  | when (test : FlagTest)
deriving DecidableEq

namespace Head

def test? : Head → Option FlagTest
  | .when test => some test
  | _ => none

def isAnyOf : Head → Bool
  | .anyOf => true
  | _ => false

end Head

inductive Item (α : Type) where
  | term (value : α)
  | group (head : Head) (members : List (Item α))

namespace Item

variable {α : Type}

def group? (head : Head) (members : List (Item α)) : Option (Item α) :=
  if members.isEmpty then none else some (.group head members)

def allOf? (members : List (Item α)) : Option (Item α) := group? .allOf members

def anyOf? (members : List (Item α)) : Option (Item α) := group? .anyOf members

/-- Only a bare test can guard members; a conjunction is refused, even of one test. -/
def conditional? (guard : Guard) (members : List (Item α)) : Option (Item α) :=
  match guard with
  | .test t => group? (.when t) members
  | .all _ => none

theorem conditional?_eq_some_iff {guard : Guard} {members : List (Item α)} {item : Item α} :
    conditional? guard members = some item ↔
      members ≠ [] ∧ ∃ test, guard = .test test ∧ item = .group (.when test) members := by
  cases guard with
  | test t => cases members <;> simp [conditional?, group?, eq_comm]
  | all parts => simp [conditional?]

def members : Item α → List (Item α)
  | .term _ => []
  | .group _ members => members

def asTerm? : Item α → Option α
  | .term value => some value
  | .group _ _ => none

end Item

end DepSpec
