import DepSpec.Loop
import DepSpec.Tour

/-! Items copied with a stack of the lists that are being copied. A group is put into the list
around it when all its members are copied. -/

namespace DepSpec

variable {α : Type}

/-- A list that is being copied: the head of its group, or none for the items at the top, what is
ahead in it, and the copies of what is behind, last first. -/
structure CopyFrame (α : Type) where
  head? : Option Head
  ahead : List (Item α)
  copied : List (Item α)

namespace CopyFrame

/-- Puts an item that is copied into the innermost list. It is lost if there is none. -/
def put (item : Item α) : List (CopyFrame α) → List (CopyFrame α)
  | [] => []
  | frame :: above => { frame with copied := item :: frame.copied } :: above

/-- Where the items at the top end, the copy is handed out. Without a list being copied there is
none to hand out. -/
def turn : List (CopyFrame α) → Turn (List (CopyFrame α)) (Option (List (Item α)))
  | [] => .stop none
  | ⟨head?, .term value :: ahead, copied⟩ :: above =>
    .goOn (put (.term value) (⟨head?, ahead, copied⟩ :: above))
  | ⟨head?, .group head members :: ahead, copied⟩ :: above =>
    .goOn (⟨some head, members, []⟩ :: ⟨head?, ahead, copied⟩ :: above)
  | ⟨some head, [], copied⟩ :: above => .goOn (put (.group head copied.reverse) above)
  | ⟨none, [], copied⟩ :: _ => .stop (some copied.reverse)

/-- The number of turns in which the lists are copied. -/
def size (frames : List (CopyFrame α)) : Nat :=
  (frames.flatMap fun frame => itemEvents frame.ahead).length + frames.length

/-- What the lists are copies of, with some more items between what is behind and what is ahead in
the innermost one. -/
def original (between : List (Item α)) : List (CopyFrame α) → Option (List (Item α))
  | [] => none
  | ⟨none, ahead, copied⟩ :: _ => some (copied.reverse ++ between ++ ahead)
  | ⟨some head, ahead, copied⟩ :: above =>
    original [.group head (copied.reverse ++ between ++ ahead)] above

theorem size_put (item : Item α) (frames : List (CopyFrame α)) :
    size (put item frames) = size frames := by
  cases frames <;> rfl

theorem original_put (item : Item α) (frames : List (CopyFrame α)) :
    original [] (put item frames) = original [item] frames := by
  rcases frames with _ | ⟨⟨_ | head, ahead, copied⟩, above⟩ <;> simp [put, original]

/-- What a turn does if it is not the last. -/
inductive Step : List (CopyFrame α) → List (CopyFrame α) → Prop
  | term (value : α) (head? : Option Head) (ahead copied : List (Item α))
      (above : List (CopyFrame α)) :
      Step (⟨head?, .term value :: ahead, copied⟩ :: above)
        (put (.term value) (⟨head?, ahead, copied⟩ :: above))
  | enter (head : Head) (members : List (Item α)) (head? : Option Head)
      (ahead copied : List (Item α)) (above : List (CopyFrame α)) :
      Step (⟨head?, .group head members :: ahead, copied⟩ :: above)
        (⟨some head, members, []⟩ :: ⟨head?, ahead, copied⟩ :: above)
  | leave (head : Head) (copied : List (Item α)) (above : List (CopyFrame α)) :
      Step (⟨some head, [], copied⟩ :: above) (put (.group head copied.reverse) above)

namespace Step

theorem size_eq {frames later : List (CopyFrame α)} (h : Step frames later) :
    size frames = size later + 1 := by
  cases h with
  | term value head? ahead copied above =>
    rw [size_put]
    simp [size, itemEvents, Item.events]
    omega
  | enter head members head? ahead copied above =>
    simp [size, itemEvents, Item.events]
    omega
  | leave head copied above =>
    rw [size_put]
    simp [size, itemEvents]
    omega

theorem original_eq {frames later : List (CopyFrame α)} (h : Step frames later) :
    original [] frames = original [] later := by
  cases h with
  | term value head? ahead copied above =>
    rw [original_put]
    cases head? <;> simp [original]
  | enter head members head? ahead copied above => cases head? <;> simp [original]
  | leave head copied above =>
    rw [original_put]
    simp [original]

end Step

theorem step_of_turn {frames later : List (CopyFrame α)} (h : turn frames = .goOn later) :
    Step frames later := by
  fun_cases turn frames with
  | case1 => simp [turn] at h
  | case2 head? value ahead copied above =>
    obtain rfl := Turn.goOn.inj h
    exact .term ..
  | case3 head? head members ahead copied above =>
    obtain rfl := Turn.goOn.inj h
    exact .enter ..
  | case4 head copied above =>
    obtain rfl := Turn.goOn.inj h
    exact .leave ..
  | case5 => simp [turn] at h

theorem of_turn_eq_stop {frames : List (CopyFrame α)} {copy : Option (List (Item α))}
    (h : turn frames = .stop copy) : copy = original [] frames := by
  fun_cases turn frames with
  | case1 => exact (Turn.stop.inj h).symm
  | case2 | case3 | case4 => simp [turn] at h
  | case5 copied above =>
    obtain rfl := Turn.stop.inj h
    simp [original]

def loop : Loop (List (CopyFrame α)) (Option (List (Item α))) where
  turn := turn
  size := size
  size_lt h := by rw [(step_of_turn h).size_eq]; exact Nat.lt_succ_self _

theorem answer_loop (frames : List (CopyFrame α)) : loop.answer frames = original [] frames := by
  refine loop.answer_of_turns (p := fun frames copy => copy = original [] frames) ?_ ?_ frames
  · intro frames copy h
    exact of_turn_eq_stop h
  · intro frames later copy h hc
    rw [hc, (step_of_turn h).original_eq]

/-- The state in which the copying of items begins. -/
def start (items : List (Item α)) : List (CopyFrame α) := [⟨none, items, []⟩]

theorem answer_loop_start (items : List (Item α)) : loop.answer (start items) = some items := by
  rw [answer_loop]
  rfl

end CopyFrame

def copyItems (items : List (Item α)) : List (Item α) :=
  (CopyFrame.loop.answer (CopyFrame.start items)).getD []

theorem copyItems_eq (items : List (Item α)) : copyItems items = items := by
  rw [copyItems, CopyFrame.answer_loop_start, Option.getD_some]

def Item.copy : Item α → Item α
  | .term value => .term value
  | .group head members => .group head (copyItems members)

theorem Item.copy_eq (item : Item α) : item.copy = item := by
  cases item with
  | term value => rfl
  | group head members => rw [copy, copyItems_eq]

def copyGroup (group : Head × List (Item α)) : Head × List (Item α) :=
  (group.1, copyItems group.2)

theorem copyGroup_eq (group : Head × List (Item α)) : copyGroup group = group := by
  rw [copyGroup, copyItems_eq]

end DepSpec
