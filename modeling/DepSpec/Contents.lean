import DepSpec.Spec

/-! What items contain, by plain recursion: their terms and the tests of their conditionals, from
left to right, at any depth. -/

namespace DepSpec

variable {α : Type}

mutual

def Item.terms : Item α → List α
  | .term value => [value]
  | .group _ members => termsOfItems members

def termsOfItems : List (Item α) → List α
  | [] => []
  | item :: items => item.terms ++ termsOfItems items

end

mutual

def Item.tests : Item α → List FlagTest
  | .term _ => []
  | .group head members => head.test?.toList ++ testsOfItems members

def testsOfItems : List (Item α) → List FlagTest
  | [] => []
  | item :: items => item.tests ++ testsOfItems items

end

theorem termsOfItems_append (xs ys : List (Item α)) :
    termsOfItems (xs ++ ys) = termsOfItems xs ++ termsOfItems ys := by
  induction xs with
  | nil => rfl
  | cons x xs ih => simp [termsOfItems, ih]

theorem termsOfItems_flatten (lists : List (List (Item α))) :
    termsOfItems lists.flatten = lists.flatMap termsOfItems := by
  induction lists with
  | nil => rfl
  | cons items lists ih => rw [List.flatten_cons, termsOfItems_append, ih, List.flatMap_cons]

theorem testsOfItems_append (xs ys : List (Item α)) :
    testsOfItems (xs ++ ys) = testsOfItems xs ++ testsOfItems ys := by
  induction xs with
  | nil => rfl
  | cons x xs ih => simp [testsOfItems, ih]

theorem mem_termsOfItems {value : α} {items : List (Item α)} :
    value ∈ termsOfItems items ↔ ∃ item ∈ items, value ∈ item.terms := by
  induction items with
  | nil => simp [termsOfItems]
  | cons item items ih => simp [termsOfItems, ih]

theorem mem_testsOfItems {test : FlagTest} {items : List (Item α)} :
    test ∈ testsOfItems items ↔ ∃ item ∈ items, test ∈ item.tests := by
  induction items with
  | nil => simp [testsOfItems]
  | cons item items ih => simp [testsOfItems, ih]

mutual

theorem Item.filterMap_term?_events (item : Item α) :
    item.events.filterMap Event.term? = item.terms := by
  match item with
  | .term value => simp [Item.events, Item.terms, Event.term?]
  | .group head members =>
    simp [Item.events, Item.terms, Event.term?, List.filterMap_cons,
      filterMap_term?_itemEvents members]

theorem filterMap_term?_itemEvents (items : List (Item α)) :
    (itemEvents items).filterMap Event.term? = termsOfItems items := by
  match items with
  | [] => rfl
  | item :: items =>
    simp [itemEvents, termsOfItems, Item.filterMap_term?_events item,
      filterMap_term?_itemEvents items]

end

mutual

theorem Item.filterMap_test?_events (item : Item α) :
    item.events.filterMap Event.test? = item.tests := by
  match item with
  | .term value => simp [Item.events, Item.tests, Event.test?]
  | .group head members =>
    cases h : head.test? <;>
      simp [Item.events, Item.tests, Event.test?, filterMap_test?_itemEvents members, h]

theorem filterMap_test?_itemEvents (items : List (Item α)) :
    (itemEvents items).filterMap Event.test? = testsOfItems items := by
  match items with
  | [] => rfl
  | item :: items =>
    simp [itemEvents, testsOfItems, Item.filterMap_test?_events item,
      filterMap_test?_itemEvents items]

end

theorem hasConditional_eq (items : List (Item α)) :
    hasConditional items = !(testsOfItems items).isEmpty := by
  rw [hasConditional, ← filterMap_test?_itemEvents, events_eq_itemEvents]
  induction itemEvents items with
  | nil => rfl
  | cons event events ih => cases h : event.test? <;> simp [h, ih]

namespace Spec

theorem terms_eq_termsOfItems (spec : Spec α) : spec.terms = termsOfItems spec.items := by
  rw [terms, events_eq_itemEvents, filterMap_term?_itemEvents]

theorem flags_eq (spec : Spec α) :
    spec.flags =
      if spec.conditional then sortedNames ((testsOfItems spec.items).map FlagTest.flag)
      else [] := by
  rw [flags, events_eq_itemEvents, filterMap_test?_itemEvents]

theorem conditional_ofItems (items : List (Item α)) :
    (ofItems items).conditional = !(testsOfItems items).isEmpty :=
  hasConditional_eq items

end Spec

namespace Tour

/-- The terms that remain are the next one and those that remain after it. -/
theorem filterMap_term?_rest (tour : Tour α) :
    tour.rest.filterMap Event.term? =
      match tour.nextTerm? with
      | none => []
      | some (value, next) => value :: next.rest.filterMap Event.term? := by
  fun_induction nextTerm? tour with
  | case1 tour h => simp [rest_eq_nil h]
  | case2 tour value next h => simp [rest_eq_cons h, Event.term?]
  | case3 tour event next hn h ih =>
    cases event with
    | term value => exact absurd rfl (hn value)
    | enter head size => simpa [rest_eq_cons h, Event.term?, List.filterMap_cons] using ih
    | leave => simpa [rest_eq_cons h, Event.term?, List.filterMap_cons] using ih

end Tour

end DepSpec
