import DepSpec.Loop
import DepSpec.Spec

/-! Items compared in lockstep. Both sides are walked with a stack of the lists that are ahead, one
pair for each pair of groups that is open, and the first difference is the answer. -/

namespace DepSpec

variable {α : Type}

/-- What is ahead on either side of a comparison. -/
structure Pairing (α : Type) where
  left : List (Item α)
  right : List (Item α)

namespace Pairing

/-- The number of turns in which the pairs are compared if nothing differs. -/
def size (pairs : List (Pairing α)) : Nat :=
  (pairs.flatMap fun pair => itemEvents pair.left).length + pairs.length

/-- What a turn does if it is not the last. -/
inductive Step : List (Pairing α) → List (Pairing α) → Prop
  | leave (above : List (Pairing α)) : Step (⟨[], []⟩ :: above) above
  | term (x : α) (xs ys : List (Item α)) (above : List (Pairing α)) :
      Step (⟨.term x :: xs, .term x :: ys⟩ :: above) (⟨xs, ys⟩ :: above)
  | enter (head : Head) {members others : List (Item α)} (xs ys : List (Item α))
      (above : List (Pairing α)) (hl : members.length = others.length) :
      Step (⟨.group head members :: xs, .group head others :: ys⟩ :: above)
        (⟨members, others⟩ :: ⟨xs, ys⟩ :: above)

namespace Step

theorem size_eq {pairs later : List (Pairing α)} (h : Step pairs later) :
    size pairs = size later + 1 := by
  cases h with
  | leave above => simp [size, itemEvents]; omega
  | term x xs ys above => simp [size, itemEvents, Item.events]; omega
  | enter head xs ys above hl => simp [size, itemEvents, Item.events]; omega

theorem forall_eq_iff {pairs later : List (Pairing α)} (h : Step pairs later) :
    (∀ pair ∈ later, pair.left = pair.right) ↔ ∀ pair ∈ pairs, pair.left = pair.right := by
  cases h with
  | leave above => simp
  | term x xs ys above => simp
  | enter head xs ys above hl => simp [and_assoc]

end Step

variable [DecidableEq α]

/-- Groups are entered only if they have the same head and as many members. -/
def turn : List (Pairing α) → Turn (List (Pairing α)) Bool
  | [] => .stop true
  | ⟨[], []⟩ :: above => .goOn above
  | ⟨.term x :: xs, .term y :: ys⟩ :: above =>
    if x = y then .goOn (⟨xs, ys⟩ :: above) else .stop false
  | ⟨.group head members :: xs, .group other others :: ys⟩ :: above =>
    if head = other ∧ members.length = others.length then
      .goOn (⟨members, others⟩ :: ⟨xs, ys⟩ :: above)
    else .stop false
  | _ => .stop false

theorem step_of_turn {pairs later : List (Pairing α)} (h : turn pairs = .goOn later) :
    Step pairs later := by
  fun_cases turn pairs with
  | case1 => simp [turn] at h
  | case2 above =>
    obtain rfl := Turn.goOn.inj h
    exact .leave _
  | case3 xs x ys above =>
    rw [turn, if_pos rfl] at h
    obtain rfl := Turn.goOn.inj h
    exact .term ..
  | case4 x xs y ys above hxy => simp [turn, hxy] at h
  | case5 head members xs other others ys above hm =>
    rw [turn, if_pos hm] at h
    obtain rfl := Turn.goOn.inj h
    obtain ⟨rfl, hl⟩ := hm
    exact .enter _ _ _ _ hl
  | case6 head members xs other others ys above hm => simp [turn, hm] at h
  | case7 => simp [turn] at h

theorem of_turn_eq_stop {pairs : List (Pairing α)} {answer : Bool} (h : turn pairs = .stop answer) :
    answer = true ↔ ∀ pair ∈ pairs, pair.left = pair.right := by
  fun_cases turn pairs with
  | case1 =>
    obtain rfl := Turn.stop.inj h
    simp
  | case2 above => simp [turn] at h
  | case3 xs x ys above => simp [turn] at h
  | case4 x xs y ys above hxy =>
    rw [turn, if_neg hxy] at h
    obtain rfl := Turn.stop.inj h
    simp [hxy]
  | case5 head members xs other others ys above hm => simp [turn, hm] at h
  | case6 head members xs other others ys above hm =>
    rw [turn, if_neg hm] at h
    obtain rfl := Turn.stop.inj h
    refine ⟨nofun, fun hall => absurd ?_ hm⟩
    obtain ⟨⟨rfl, rfl⟩, rfl⟩ := by simpa using hall _ List.mem_cons_self
    exact ⟨rfl, rfl⟩
  | case7 pairs hnil hleave hterm hgroup =>
    simp only [turn, Turn.stop.injEq] at h
    subst h
    refine ⟨nofun, fun hall => ?_⟩
    cases pairs with
    | nil => exact absurd rfl hnil
    | cons pair above =>
      obtain ⟨left, right⟩ := pair
      obtain rfl : left = right := hall _ List.mem_cons_self
      rcases left with _ | ⟨_ | ⟨head, members⟩, items⟩
      · exact (hleave above rfl).elim
      · exact (hterm _ _ _ _ above rfl).elim
      · exact (hgroup _ _ _ _ _ _ above rfl).elim

def loop : Loop (List (Pairing α)) Bool where
  turn := turn
  size := size
  size_lt h := by rw [(step_of_turn h).size_eq]; exact Nat.lt_succ_self _

theorem answer_loop_iff (pairs : List (Pairing α)) :
    loop.answer pairs = true ↔ ∀ pair ∈ pairs, pair.left = pair.right := by
  refine loop.answer_of_turns (p := fun pairs answer =>
    answer = true ↔ ∀ pair ∈ pairs, pair.left = pair.right) ?_ ?_ pairs
  · intro pairs answer h
    exact of_turn_eq_stop h
  · intro pairs later answer h ha
    rw [ha, (step_of_turn h).forall_eq_iff]

end Pairing

variable [DecidableEq α]

def sameInLockstep (xs ys : List (Item α)) : Bool :=
  xs.length == ys.length && Pairing.loop.answer [⟨xs, ys⟩]

theorem sameInLockstep_iff {xs ys : List (Item α)} : sameInLockstep xs ys = true ↔ xs = ys := by
  rw [sameInLockstep, Bool.and_eq_true, beq_iff_eq, Pairing.answer_loop_iff]
  constructor
  · rintro ⟨-, h⟩
    exact h _ List.mem_cons_self
  · rintro rfl
    simp

theorem sameInLockstep_eq_sameItems (xs ys : List (Item α)) :
    sameInLockstep xs ys = sameItems xs ys := by
  rw [Bool.eq_iff_iff, sameInLockstep_iff, sameItems_iff]

def Item.same (x y : Item α) : Bool := sameInLockstep [x] [y]

theorem Item.same_iff {x y : Item α} : x.same y = true ↔ x = y := by
  simp [Item.same, sameInLockstep_iff]

/-- Compares two groups that are both plain groups or both conditionals, given by their heads and
members. -/
def sameGroup (a b : Head × List (Item α)) : Bool :=
  a.1 == b.1 && sameInLockstep a.2 b.2

theorem sameGroup_iff {a b : Head × List (Item α)} : sameGroup a b = true ↔ a = b := by
  rw [sameGroup, Bool.and_eq_true, beq_iff_eq, sameInLockstep_iff, Prod.ext_iff]

end DepSpec
