import DepSpec.Item

/-! A tour walks items depth-first with the groups it is inside of kept in a list, so that nesting
of any depth is walked step by step. Its events are those of the plain recursion. -/

namespace DepSpec

variable {α β : Type}

inductive Event (α : Type) where
  | term (value : α)
  | enter (head : Head) (size : Nat)
  | leave
deriving DecidableEq

namespace Event

def term? : Event α → Option α
  | .term value => some value
  | _ => none

def test? : Event α → Option FlagTest
  | .enter head _ => head.test?
  | _ => none

def map (f : α → β) : Event α → Event β
  | .term value => .term (f value)
  | .enter head size => .enter head size
  | .leave => .leave

end Event

mutual

/-- The events of one item: its term, or its members between an entry and a departure. -/
def Item.events : Item α → List (Event α)
  | .term value => [.term value]
  | .group head members => .enter head members.length :: (itemEvents members ++ [.leave])

def itemEvents : List (Item α) → List (Event α)
  | [] => []
  | item :: items => item.events ++ itemEvents items

end

/-- The items still ahead in the group being walked, and those after each group around it. -/
structure Tour (α : Type) where
  ahead : List (Item α)
  above : List (List (Item α))

namespace Tour

def start (items : List (Item α)) : Tour α := ⟨items, []⟩

def next? : Tour α → Option (Event α × Tour α)
  | ⟨.term value :: items, above⟩ => some (.term value, ⟨items, above⟩)
  | ⟨.group head members :: items, above⟩ =>
    some (.enter head members.length, ⟨members, items :: above⟩)
  | ⟨[], items :: above⟩ => some (.leave, ⟨items, above⟩)
  | ⟨[], []⟩ => none

/-- The events to come, by plain recursion. -/
def rest (tour : Tour α) : List (Event α) :=
  itemEvents tour.ahead ++ tour.above.flatMap fun items => .leave :: itemEvents items

theorem rest_eq_cons {tour next : Tour α} {event : Event α}
    (h : tour.next? = some (event, next)) : tour.rest = event :: next.rest := by
  obtain ⟨ahead, above⟩ := tour
  rcases ahead with _ | ⟨_ | ⟨head, members⟩, items⟩
  · rcases above with _ | ⟨items, above⟩ <;> simp [next?] at h
    obtain ⟨rfl, rfl⟩ := h
    simp [rest, itemEvents]
  · simp only [next?, Option.some.injEq, Prod.mk.injEq] at h
    obtain ⟨rfl, rfl⟩ := h
    simp [rest, itemEvents, Item.events]
  · simp only [next?, Option.some.injEq, Prod.mk.injEq] at h
    obtain ⟨rfl, rfl⟩ := h
    simp [rest, itemEvents, Item.events]

theorem rest_eq_nil {tour : Tour α} (h : tour.next? = none) : tour.rest = [] := by
  obtain ⟨ahead, above⟩ := tour
  rcases ahead with _ | ⟨_ | ⟨head, members⟩, items⟩
  · rcases above with _ | ⟨items, above⟩ <;> simp [next?] at h
    simp [rest, itemEvents]
  · simp [next?] at h
  · simp [next?] at h

theorem length_rest_lt {tour next : Tour α} {event : Event α}
    (h : tour.next? = some (event, next)) : next.rest.length < tour.rest.length := by
  simp [rest_eq_cons h]

def collect (tour : Tour α) (seen : List (Event α)) : List (Event α) :=
  match _h : tour.next? with
  | none => seen.reverse
  | some (event, next) => next.collect (event :: seen)
termination_by tour.rest.length
decreasing_by exact length_rest_lt _h

theorem collect_eq (tour : Tour α) (seen : List (Event α)) :
    tour.collect seen = seen.reverse ++ tour.rest := by
  fun_induction collect tour seen with
  | case1 tour seen h => simp [rest_eq_nil h]
  | case2 tour seen event next h ih => simp [ih, rest_eq_cons h]

/-- The next term ahead, with the tour behind it. -/
def nextTerm? (tour : Tour α) : Option (α × Tour α) :=
  match _h : tour.next? with
  | none => none
  | some (.term value, next) => some (value, next)
  | some (_, next) => next.nextTerm?
termination_by tour.rest.length
decreasing_by all_goals exact length_rest_lt _h

end Tour

def events (items : List (Item α)) : List (Event α) :=
  (Tour.start items).collect []

theorem events_eq_itemEvents (items : List (Item α)) : events items = itemEvents items := by
  simp [events, Tour.collect_eq, Tour.start, Tour.rest]

end DepSpec
