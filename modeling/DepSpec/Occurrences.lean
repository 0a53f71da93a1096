import DepSpec.GuardIndex

/-! The occurrences of terms with their guards, by plain recursion: each guard is a conditional
that the term is in, the outermost first. -/

namespace DepSpec

variable {α : Type}

mutual

def Item.occurrences (guards : List FlagTest) : Item α → List (α × List FlagTest)
  | .term value => [(value, guards)]
  | .group head members => occurrencesUnder (guards ++ head.test?.toList) members

def occurrencesUnder (guards : List FlagTest) : List (Item α) → List (α × List FlagTest)
  | [] => []
  | item :: items => item.occurrences guards ++ occurrencesUnder guards items

end

theorem occurrencesUnder_append (guards : List FlagTest) (xs ys : List (Item α)) :
    occurrencesUnder guards (xs ++ ys) =
      occurrencesUnder guards xs ++ occurrencesUnder guards ys := by
  induction xs with
  | nil => rfl
  | cons x xs ih => simp [occurrencesUnder, ih]

namespace GuardWalk

def find (walk : GuardWalk α) (found : List (α × List FlagTest)) : GuardWalk α :=
  { walk with found := found.reverse ++ walk.found }

theorem find_find (walk : GuardWalk α) (xs ys : List (α × List FlagTest)) :
    (walk.find xs).find ys = walk.find (xs ++ ys) := by
  simp [find]

mutual

theorem foldl_events (walk : GuardWalk α) (item : Item α) :
    item.events.foldl add walk = walk.find (item.occurrences walk.guards.reverse) := by
  match item with
  | .term value => simp [Item.events, add, Item.occurrences, find]
  | .group head members =>
    simp only [Item.events, List.foldl_cons, List.foldl_append, List.foldl_nil, add,
      foldl_itemEvents _ members, Item.occurrences, find, List.reverse_append]
    cases head.test? <;> simp

theorem foldl_itemEvents (walk : GuardWalk α) (items : List (Item α)) :
    (itemEvents items).foldl add walk =
      walk.find (occurrencesUnder walk.guards.reverse items) := by
  match items with
  | [] => simp [itemEvents, find, occurrencesUnder]
  | item :: items =>
    simp [itemEvents, foldl_events _ item, foldl_itemEvents _ items, find_find, occurrencesUnder,
      show ∀ found, (walk.find found).guards = walk.guards from fun _ => rfl]

end

end GuardWalk

theorem occurrences_eq_occurrencesUnder (items : List (Item α)) :
    occurrences items = occurrencesUnder [] items := by
  simp [occurrences, events_eq_itemEvents, GuardWalk.foldl_itemEvents, GuardWalk.find,
    GuardWalk.start]

end DepSpec
