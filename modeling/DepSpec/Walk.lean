import DepSpec.Contents
import DepSpec.Loop

/-! Walks over items that keep the lists still ahead on a stack. A turn leaves a list that has come
to its end or enters the members of the next item. One walk is asked for its terms one by one and
goes on from where it was; another ends at the first conditional. -/

namespace DepSpec

variable {α : Type}

/-- The lists of items still ahead, that of the innermost group first. -/
structure Walk (α : Type) where
  pending : List (List (Item α))

def Item.isConditional : Item α → Bool
  | .group (.when _) _ => true
  | _ => false

theorem Item.tests_eq_of_not_isConditional {item : Item α} (h : ¬ item.isConditional = true) :
    item.tests = testsOfItems item.members := by
  match item with
  | .term value => rfl
  | .group .allOf members => rfl
  | .group .anyOf members => rfl
  | .group (.when test) members => exact absurd rfl h

theorem Item.tests_ne_nil_of_isConditional {item : Item α} (h : item.isConditional = true) :
    item.tests ≠ [] := by
  match item with
  | .term value => cases h
  | .group .allOf members => cases h
  | .group .anyOf members => cases h
  | .group (.when test) members => simp [Item.tests, Head.test?]

namespace Walk

def start (items : List (Item α)) : Walk α := ⟨[items]⟩

/-- All items ahead, as if they stood in one list. -/
def ahead (walk : Walk α) : List (Item α) := walk.pending.flatten

/-- Entering an item leaves one list more, so an item counts for more than a list. -/
def size (walk : Walk α) : Nat :=
  2 * (walk.pending.flatMap itemEvents).length + walk.pending.length

theorem ahead_start (items : List (Item α)) : (start items).ahead = items := by
  simp [start, ahead]

/-- What a turn does if it is not the last. -/
inductive Step : Walk α → Walk α → Prop
  | leave (above : List (List (Item α))) : Step ⟨[] :: above⟩ ⟨above⟩
  | enter (item : Item α) (items : List (Item α)) (above : List (List (Item α))) :
      Step ⟨(item :: items) :: above⟩ ⟨item.members :: items :: above⟩

theorem Step.size_lt {walk later : Walk α} (h : Step walk later) : later.size < walk.size := by
  cases h with
  | leave above => simp [size, itemEvents]
  | enter item items above =>
    cases item with
    | term value =>
      simp [size, Item.members, itemEvents, Item.events]
      omega
    | group head members =>
      simp [size, Item.members, itemEvents, Item.events]
      omega

/-- Stops with the next term, if there is one, and the walk that is left. -/
def termTurn : Walk α → Turn (Walk α) (Option α × Walk α)
  | ⟨[]⟩ => .stop (none, ⟨[]⟩)
  | ⟨[] :: above⟩ => .goOn ⟨above⟩
  | ⟨(.term value :: items) :: above⟩ => .stop (some value, ⟨items :: above⟩)
  | ⟨(.group _ members :: items) :: above⟩ => .goOn ⟨members :: items :: above⟩

/-- A group is entered, so its terms remain ahead. -/
theorem step_of_termTurn {walk later : Walk α} (h : walk.termTurn = .goOn later) :
    Step walk later ∧ termsOfItems later.ahead = termsOfItems walk.ahead := by
  fun_cases termTurn walk with
  | case1 => simp [termTurn] at h
  | case2 above =>
    obtain rfl := Turn.goOn.inj h
    exact ⟨.leave above, by simp [ahead]⟩
  | case3 value items above => simp [termTurn] at h
  | case4 head members items above =>
    obtain rfl := Turn.goOn.inj h
    refine ⟨.enter (.group head members) items above, ?_⟩
    simp [ahead, termsOfItems, termsOfItems_append, Item.terms]

theorem terms_of_termTurn_eq_stop {walk : Walk α} {answer : Option α × Walk α}
    (h : walk.termTurn = .stop answer) :
    answer.1 = (termsOfItems walk.ahead).head? ∧
      termsOfItems answer.2.ahead = (termsOfItems walk.ahead).tail := by
  fun_cases termTurn walk with
  | case1 =>
    obtain rfl := Turn.stop.inj h
    simp [ahead, termsOfItems]
  | case2 above => simp [termTurn] at h
  | case3 value items above =>
    obtain rfl := Turn.stop.inj h
    simp [ahead, termsOfItems, Item.terms]
  | case4 head members items above => simp [termTurn] at h

def termLoop : Loop (Walk α) (Option α × Walk α) where
  turn := termTurn
  size := size
  size_lt h := (step_of_termTurn h).1.size_lt

def nextTerm (walk : Walk α) : Option α × Walk α := termLoop.answer walk

theorem terms_nextTerm (walk : Walk α) :
    walk.nextTerm.1 = (termsOfItems walk.ahead).head? ∧
      termsOfItems walk.nextTerm.2.ahead = (termsOfItems walk.ahead).tail := by
  refine termLoop.answer_of_turns (p := fun walk answer =>
    answer.1 = (termsOfItems walk.ahead).head? ∧
      termsOfItems answer.2.ahead = (termsOfItems walk.ahead).tail) ?_ ?_ walk
  · intro walk answer h
    exact terms_of_termTurn_eq_stop h
  · intro walk later answer h ha
    rwa [(step_of_termTurn h).2] at ha

/-- The walk after it was asked for a number of terms. -/
def after (walk : Walk α) : Nat → Walk α
  | 0 => walk
  | k + 1 => (walk.after k).nextTerm.2

theorem terms_after (walk : Walk α) (k : Nat) :
    termsOfItems (walk.after k).ahead = (termsOfItems walk.ahead).drop k := by
  induction k with
  | zero => rfl
  | succ k ih => rw [after, (terms_nextTerm _).2, ih, List.tail_drop]

theorem fst_nextTerm_after (walk : Walk α) (k : Nat) :
    (walk.after k).nextTerm.1 = (termsOfItems walk.ahead)[k]? := by
  rw [(terms_nextTerm _).1, terms_after, List.head?_drop]

theorem terms_eq_nil {walk : Walk α} (h : walk.nextTerm.1 = none) :
    termsOfItems walk.ahead = [] := by
  rwa [(terms_nextTerm walk).1, List.head?_eq_none_iff] at h

theorem terms_eq_cons {walk later : Walk α} {value : α}
    (h : walk.nextTerm = (some value, later)) :
    termsOfItems walk.ahead = value :: termsOfItems later.ahead := by
  obtain ⟨hv, hl⟩ := terms_nextTerm walk
  rw [h] at hv hl
  obtain ⟨values, hc⟩ := List.head?_eq_some_iff.mp hv.symm
  rw [hc, List.tail_cons] at hl
  rw [hc, hl]

theorem length_terms_lt {walk later : Walk α} {value : α}
    (h : walk.nextTerm = (some value, later)) :
    (termsOfItems later.ahead).length < (termsOfItems walk.ahead).length := by
  simp [terms_eq_cons h]

/-- Everything that the walk still answers, until it has no term. -/
def collect (walk : Walk α) : List α :=
  match _h : walk.nextTerm with
  | (none, _) => []
  | (some value, later) => value :: later.collect
termination_by (termsOfItems walk.ahead).length
decreasing_by exact length_terms_lt _h

theorem collect_eq (walk : Walk α) : walk.collect = termsOfItems walk.ahead := by
  fun_induction collect walk with
  | case1 walk later h => rw [terms_eq_nil (by rw [h])]
  | case2 walk value later h ih => rw [ih, terms_eq_cons h]

/-- The walk that has come to where a tour is. -/
def ofTour (tour : Tour α) : Walk α := ⟨tour.ahead :: tour.above⟩

theorem terms_ofTour (tour : Tour α) :
    termsOfItems (ofTour tour).ahead = tour.rest.filterMap Event.term? := by
  simp [ofTour, ahead, Tour.rest, termsOfItems_append, termsOfItems_flatten,
    filterMap_term?_itemEvents, List.filterMap_flatMap, List.filterMap_cons, Event.term?]

theorem fst_nextTerm_ofTour (tour : Tour α) :
    (ofTour tour).nextTerm.1 = tour.nextTerm?.map Prod.fst := by
  rw [(terms_nextTerm _).1, terms_ofTour, tour.filterMap_term?_rest]
  cases tour.nextTerm? <;> rfl

/-- Stops at the first conditional. Even a term is entered, as an item without members. -/
def conditionalTurn : Walk α → Turn (Walk α) Bool
  | ⟨[]⟩ => .stop false
  | ⟨[] :: above⟩ => .goOn ⟨above⟩
  | ⟨(item :: items) :: above⟩ =>
    if item.isConditional then .stop true else .goOn ⟨item.members :: items :: above⟩

/-- What is entered is no conditional, so no test is lost. -/
theorem step_of_conditionalTurn {walk later : Walk α} (h : walk.conditionalTurn = .goOn later) :
    Step walk later ∧ testsOfItems later.ahead = testsOfItems walk.ahead := by
  fun_cases conditionalTurn walk with
  | case1 => simp [conditionalTurn] at h
  | case2 above =>
    obtain rfl := Turn.goOn.inj h
    exact ⟨.leave above, by simp [ahead]⟩
  | case3 item items above hc => simp [conditionalTurn, hc] at h
  | case4 item items above hc =>
    rw [conditionalTurn, if_neg hc] at h
    obtain rfl := Turn.goOn.inj h
    refine ⟨.enter item items above, ?_⟩
    simp [ahead, testsOfItems, testsOfItems_append, item.tests_eq_of_not_isConditional hc]

theorem tests_of_conditionalTurn_eq_stop {walk : Walk α} {answer : Bool}
    (h : walk.conditionalTurn = .stop answer) : answer = !(testsOfItems walk.ahead).isEmpty := by
  fun_cases conditionalTurn walk with
  | case1 =>
    obtain rfl := Turn.stop.inj h
    simp [ahead, testsOfItems]
  | case2 above => simp [conditionalTurn] at h
  | case3 item items above hc =>
    rw [conditionalTurn, if_pos hc] at h
    obtain rfl := Turn.stop.inj h
    simp [ahead, testsOfItems, item.tests_ne_nil_of_isConditional hc]
  | case4 item items above hc => simp [conditionalTurn, hc] at h

def conditionalLoop : Loop (Walk α) Bool where
  turn := conditionalTurn
  size := size
  size_lt h := (step_of_conditionalTurn h).1.size_lt

def meetsConditional (walk : Walk α) : Bool := conditionalLoop.answer walk

theorem meetsConditional_eq (walk : Walk α) :
    walk.meetsConditional = !(testsOfItems walk.ahead).isEmpty := by
  refine conditionalLoop.answer_of_turns
    (p := fun walk answer => answer = !(testsOfItems walk.ahead).isEmpty) ?_ ?_ walk
  · intro walk answer h
    exact tests_of_conditionalTurn_eq_stop h
  · intro walk later answer h ha
    rw [ha, (step_of_conditionalTurn h).2]

end Walk

end DepSpec
