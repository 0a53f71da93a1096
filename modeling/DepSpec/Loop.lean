/-! Loops that take one turn after the other until they have an answer. Each turn makes the state of
a loop smaller, so every loop ends. -/

namespace DepSpec

inductive Turn (σ β : Type) where
  | stop (answer : β)
  | goOn (state : σ)

structure Loop (σ β : Type) where
  turn : σ → Turn σ β
  size : σ → Nat
  size_lt : ∀ {state later}, turn state = .goOn later → size later < size state

namespace Loop

variable {σ β : Type}

def answer (loop : Loop σ β) (state : σ) : β :=
  match _h : loop.turn state with
  | .stop answer => answer
  | .goOn later => loop.answer later
termination_by loop.size state
decreasing_by exact loop.size_lt _h

theorem wellFounded (loop : Loop σ β) :
    WellFounded fun later state => loop.turn state = .goOn later :=
  Subrelation.wf loop.size_lt (measure loop.size).wf

/-- What is true of the answer where the loop stops, and remains true when a turn is taken back, is
true of the answer from any state. -/
theorem answer_of_turns (loop : Loop σ β) {p : σ → β → Prop}
    (hs : ∀ state answer, loop.turn state = .stop answer → p state answer)
    (hg : ∀ state later answer, loop.turn state = .goOn later → p later answer → p state answer)
    (state : σ) : p state (loop.answer state) := by
  fun_induction loop.answer state with
  | case1 state answer h => exact hs state answer h
  | case2 state later h ih => exact hg state later _ h ih

end Loop

end DepSpec
