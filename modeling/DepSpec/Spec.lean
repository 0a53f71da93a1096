import DepSpec.Rebuild

/-! A dependency specification: the items that are all required, and whether a conditional group
occurs among them at any depth. Items are equal exactly when their tours have the same events,
which is how equality is decided at any depth. -/

namespace DepSpec

variable {α β : Type}

def sameItems [DecidableEq α] (xs ys : List (Item α)) : Bool :=
  (events xs).beq (events ys)

theorem events_injective {xs ys : List (Item α)} (h : events xs = events ys) : xs = ys := by
  have hx := ofEvents?_events xs
  rw [h, ofEvents?_events] at hx
  exact (Option.some.inj hx).symm

theorem sameItems_iff [DecidableEq α] {xs ys : List (Item α)} :
    sameItems xs ys = true ↔ xs = ys := by
  change (events xs == events ys) = true ↔ xs = ys
  rw [beq_iff_eq]
  exact ⟨events_injective, fun h => h ▸ rfl⟩

instance [DecidableEq α] : DecidableEq (Item α) := fun x y =>
  decidable_of_iff (sameItems [x] [y] = true) (by simp [sameItems_iff])

structure Spec (α : Type) where
  items : List (Item α)
  conditional : Bool

def hasConditional (items : List (Item α)) : Bool :=
  (events items).any fun event => event.test?.isSome

namespace Spec

def empty : Spec α := ⟨[], false⟩

def ofItems (items : List (Item α)) : Spec α := ⟨items, hasConditional items⟩

/-- Every term, depth-first. -/
def terms (spec : Spec α) : List α :=
  (events spec.items).filterMap Event.term?

/-- The flags on which some conditional depends. -/
def flags (spec : Spec α) : List String :=
  if spec.conditional then
    sortedNames (((events spec.items).filterMap Event.test?).map FlagTest.flag)
  else []

def map (f : α → β) (spec : Spec α) : Spec β :=
  { spec with items := mapTerms f spec.items }

variable [DecidableEq α]

def same (a b : Spec α) : Bool :=
  a.conditional == b.conditional && sameItems a.items b.items

theorem same_iff {a b : Spec α} : a.same b = true ↔ a = b := by
  cases a
  cases b
  simp [same, sameItems_iff, and_comm]

instance : DecidableEq (Spec α) := fun a b => decidable_of_iff (a.same b = true) same_iff

end Spec

end DepSpec
