import DepSpec.Lockstep
import DepSpec.Session

/-! Sessions in which the storage of each specification is known. A copy shares the storage of what
it copies, and so does the evaluation of a specification without conditionals. Where the storage is
shared, a comparison does not look at the items. -/

namespace DepSpec

variable {α : Type}

/-- A specification and the number of the storage that holds its items. -/
structure Stored (α : Type) where
  storage : Nat
  spec : Spec α

/-- Items are compared only if the storages differ and the marks agree. -/
def Stored.same [DecidableEq α] (a b : Stored α) : Bool :=
  a.storage == b.storage ||
    (a.spec.conditional == b.spec.conditional && sameInLockstep a.spec.items b.spec.items)

/-- A session with the number that the next new storage gets. -/
structure StoredSession (α : Type) where
  items : List (Item α)
  specs : List (Stored α)
  nextStorage : Nat

namespace StoredSession

def start : StoredSession α := ⟨[], [], 0⟩

/-- The session without its storages. -/
def plain (session : StoredSession α) : Session α :=
  ⟨session.items, session.specs.map Stored.spec⟩

/-- The specification whose storage an operation shares, if it needs no new one. -/
def shared? (session : StoredSession α) : Operation α → Option (Stored α)
  | .copySpec position => session.specs[position]?
  | .evaluate _ position => session.specs[position]?.filter fun stored => !stored.spec.conditional
  | _ => none

def storageFor (session : StoredSession α) (operation : Operation α) : Nat :=
  ((session.shared? operation).map Stored.storage).getD session.nextStorage

def perform (session : StoredSession α) (operation : Operation α) : StoredSession α :=
  let made := session.plain.made operation
  ⟨session.items ++ made.items,
    session.specs ++ made.specs.map (Stored.mk (session.storageFor operation)),
    session.nextStorage + 1⟩

/-- The session after some operations. -/
def run (operations : List (Operation α)) : StoredSession α :=
  operations.foldl perform start

theorem plain_perform (session : StoredSession α) (operation : Operation α) :
    (session.perform operation).plain = session.plain.perform operation := by
  simp [perform, plain, Session.perform, Function.comp_def]

theorem plain_run (operations : List (Operation α)) :
    (run operations).plain = Session.run operations := by
  have h : ∀ session : StoredSession α, (operations.foldl perform session).plain =
      operations.foldl Session.perform session.plain := by
    induction operations with
    | nil => exact fun _ => rfl
    | cons operation operations ih =>
      intro session
      rw [List.foldl_cons, ih, plain_perform, List.foldl_cons]
  exact h start

theorem mem_specs_run {operations : List (Operation α)} {stored : Stored α}
    (h : stored ∈ (run operations).specs) : stored.spec ∈ (Session.run operations).specs := by
  rw [← plain_run]
  exact List.mem_map_of_mem h

end StoredSession

end DepSpec
