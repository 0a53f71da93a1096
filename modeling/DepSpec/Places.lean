import DepSpec.Contents
import DepSpec.Occurrences

/-! Where items stand. An address gives the position of an item in each of the lists that lead to
it, from the top down. The places of the terms are those of their occurrences, in the order of
their addresses. -/

namespace DepSpec

variable {α : Type}

/-- An item at an address, with the tests of the conditionals on the way, the outermost first. -/
inductive StandsAt : List (Item α) → List Nat → List FlagTest → Item α → Prop
  | here {items : List (Item α)} {n : Nat} {item : Item α} (h : items[n]? = some item) :
      StandsAt items [n] [] item
  | inside {items members : List (Item α)} {n : Nat} {address : List Nat} {tests : List FlagTest}
      {head : Head} {item : Item α} (h : items[n]? = some (.group head members))
      (hm : StandsAt members address tests item) :
      StandsAt items (n :: address) (head.test?.toList ++ tests) item

/-- The item stands somewhere, at whatever depth. -/
def Occurs (items : List (Item α)) (item : Item α) : Prop :=
  ∃ address tests, StandsAt items address tests item

structure Place (α : Type) where
  address : List Nat
  tests : List FlagTest
  value : α

namespace Place

def below (n : Nat) (place : Place α) : Place α :=
  { place with address := n :: place.address }

def within (head : Head) (place : Place α) : Place α :=
  { place with tests := head.test?.toList ++ place.tests }

end Place

mutual

/-- The places of the terms of an item, as seen from it. -/
def Item.places : Item α → List (Place α)
  | .term value => [⟨[], [], value⟩]
  | .group head members => (placesFrom 0 members).map (Place.within head)

/-- The places of the terms of items, of which the first is at the given position. -/
def placesFrom (n : Nat) : List (Item α) → List (Place α)
  | [] => []
  | item :: items => item.places.map (Place.below n) ++ placesFrom (n + 1) items

end

theorem not_standsAt_nil {address : List Nat} {tests : List FlagTest} {item : Item α} :
    ¬ StandsAt [] address tests item := by
  intro h
  cases h with
  | here h => simp at h
  | inside h hm => simp at h

theorem standsAt_cons_zero_iff {first item : Item α} {items : List (Item α)} {address : List Nat}
    {tests : List FlagTest} :
    StandsAt (first :: items) (0 :: address) tests item ↔
      (address = [] ∧ tests = [] ∧ item = first) ∨
        ∃ head members inner, first = .group head members ∧ tests = head.test?.toList ++ inner ∧
          StandsAt members address inner item := by
  constructor
  · intro h
    cases h with
    | here h => exact .inl ⟨rfl, rfl, (Option.some.inj h).symm⟩
    | inside h hm => exact .inr ⟨_, _, _, Option.some.inj h, rfl, hm⟩
  · rintro (⟨rfl, rfl, rfl⟩ | ⟨head, members, inner, rfl, rfl, hm⟩)
    · exact .here rfl
    · exact .inside rfl hm

theorem standsAt_cons_succ_iff {first item : Item α} {items : List (Item α)} {n : Nat}
    {address : List Nat} {tests : List FlagTest} :
    StandsAt (first :: items) ((n + 1) :: address) tests item ↔
      StandsAt items (n :: address) tests item := by
  constructor
  · intro h
    cases h with
    | here h => exact .here h
    | inside h hm => exact .inside h hm
  · intro h
    cases h with
    | here h => exact .here h
    | inside h hm => exact .inside h hm

theorem StandsAt.exists_eq_cons {items : List (Item α)} {address : List Nat}
    {tests : List FlagTest} {item : Item α} (h : StandsAt items address tests item) :
    ∃ n rest, address = n :: rest := by
  cases h with
  | here h => exact ⟨_, _, rfl⟩
  | inside h hm => exact ⟨_, _, rfl⟩

namespace Occurs

variable {items : List (Item α)} {item : Item α}

theorem of_mem (h : item ∈ items) : Occurs items item := by
  obtain ⟨n, hn⟩ := List.mem_iff_getElem?.mp h
  exact ⟨[n], [], .here hn⟩

theorem inside {head : Head} {members : List (Item α)} (h : Item.group head members ∈ items)
    (hm : Occurs members item) : Occurs items item := by
  obtain ⟨n, hn⟩ := List.mem_iff_getElem?.mp h
  obtain ⟨address, tests, hs⟩ := hm
  exact ⟨n :: address, _, .inside hn hs⟩

/-- What passes from the items to the members of groups holds wherever an item stands. -/
theorem hereditary {p : Item α → Prop} (h : Occurs items item) (hi : ∀ item ∈ items, p item)
    (hm : ∀ head members, p (.group head members) → ∀ member ∈ members, p member) : p item := by
  obtain ⟨address, tests, hs⟩ := h
  induction hs with
  | here h => exact hi _ (List.mem_of_getElem? h)
  | inside h _ ih => exact ih (hm _ _ (hi _ (List.mem_of_getElem? h)))

theorem tests_subset (h : Occurs items item) : item.tests ⊆ testsOfItems items := by
  refine h.hereditary (p := fun item => item.tests ⊆ testsOfItems items) ?_ ?_
  · exact fun item hi test ht => mem_testsOfItems.mpr ⟨item, hi, ht⟩
  · intro head members hg member hm test ht
    exact hg (List.mem_append_right _ (mem_testsOfItems.mpr ⟨member, hm, ht⟩))

end Occurs

theorem StandsAt.tests_subset {items : List (Item α)} {address : List Nat} {tests : List FlagTest}
    {item : Item α} (h : StandsAt items address tests item) : tests ⊆ testsOfItems items := by
  induction h with
  | here h => simp
  | @inside items members n address tests head item h hm ih =>
    have hg : (Item.group head members).tests ⊆ testsOfItems items :=
      fun test ht => mem_testsOfItems.mpr ⟨_, List.mem_of_getElem? h, ht⟩
    rw [Item.tests] at hg
    exact List.append_subset.mpr
      ⟨(List.append_subset.mp hg).1, List.Subset.trans ih (List.append_subset.mp hg).2⟩

mutual

theorem Item.mem_places_iff {place : Place α} (item : Item α) :
    place ∈ item.places ↔
      StandsAt [item] (0 :: place.address) place.tests (.term place.value) := by
  rw [standsAt_cons_zero_iff]
  match item with
  | .term value =>
    obtain ⟨address, tests, found⟩ := place
    simp [Item.places]
  | .group head members =>
    constructor
    · intro h
      obtain ⟨inner, hm, rfl⟩ := List.mem_map.mp h
      obtain ⟨k, address, ha, hs⟩ := (mem_placesFrom_iff members).mp hm
      rw [Nat.zero_add] at ha
      exact .inr ⟨head, members, inner.tests, rfl, rfl, ha ▸ hs⟩
    · rintro (⟨-, -, he⟩ | ⟨_, _, tests, he, ht, hs⟩)
      · cases he
      · obtain ⟨rfl, rfl⟩ := Item.group.inj he
        obtain ⟨k, address, ha⟩ := hs.exists_eq_cons
        have hm : (⟨place.address, tests, place.value⟩ : Place α) ∈ placesFrom 0 members :=
          (mem_placesFrom_iff members).mpr ⟨k, address, by simp [ha], ha ▸ hs⟩
        refine List.mem_map.mpr ⟨_, hm, ?_⟩
        rw [Place.within, ← ht]

theorem mem_placesFrom_iff {place : Place α} {n : Nat} (items : List (Item α)) :
    place ∈ placesFrom n items ↔
      ∃ k address, place.address = (n + k) :: address ∧
        StandsAt items (k :: address) place.tests (.term place.value) := by
  match items with
  | [] => simp [placesFrom, not_standsAt_nil]
  | item :: items =>
    rw [placesFrom, List.mem_append]
    constructor
    · rintro (h | h)
      · obtain ⟨inner, hi, rfl⟩ := List.mem_map.mp h
        have hs := (Item.mem_places_iff item).mp hi
        exact ⟨0, inner.address, rfl, standsAt_cons_zero_iff.mpr (standsAt_cons_zero_iff.mp hs)⟩
      · obtain ⟨k, address, ha, hs⟩ := (mem_placesFrom_iff items).mp h
        refine ⟨k + 1, address, ?_, standsAt_cons_succ_iff.mpr hs⟩
        rw [ha, Nat.add_right_comm, Nat.add_assoc]
    · rintro ⟨k, address, ha, hs⟩
      cases k with
      | zero =>
        have hi : (⟨address, place.tests, place.value⟩ : Place α) ∈ item.places :=
          (Item.mem_places_iff item).mpr
            (standsAt_cons_zero_iff.mpr (standsAt_cons_zero_iff.mp hs))
        refine .inl (List.mem_map.mpr ⟨_, hi, ?_⟩)
        rw [Place.below, show n = n + 0 from rfl, ← ha]
      | succ k =>
        have hr := (mem_placesFrom_iff (n := n + 1) items).mpr
          ⟨k, address, by rw [ha, Nat.add_right_comm, Nat.add_assoc], standsAt_cons_succ_iff.mp hs⟩
        exact .inr hr

end

theorem mem_places_iff {place : Place α} {items : List (Item α)} :
    place ∈ placesFrom 0 items ↔
      StandsAt items place.address place.tests (.term place.value) := by
  rw [mem_placesFrom_iff]
  constructor
  · rintro ⟨k, address, ha, hs⟩
    rw [ha, Nat.zero_add]
    exact hs
  · intro hs
    obtain ⟨k, address, ha⟩ := hs.exists_eq_cons
    exact ⟨k, address, by simp [ha], ha ▸ hs⟩

mutual

theorem Item.pairwise_places (item : Item α) :
    item.places.Pairwise fun p q => p.address < q.address := by
  match item with
  | .term value => simp [Item.places]
  | .group head members =>
    rw [Item.places, List.pairwise_map]
    exact pairwise_placesFrom 0 members

/-- The places come in the order of their addresses. -/
theorem pairwise_placesFrom (n : Nat) (items : List (Item α)) :
    (placesFrom n items).Pairwise fun p q => p.address < q.address := by
  match items with
  | [] => simp [placesFrom]
  | item :: items =>
    rw [placesFrom, List.pairwise_append, List.pairwise_map]
    refine ⟨?_, pairwise_placesFrom (n + 1) items, fun p hp q hq => ?_⟩
    · exact (Item.pairwise_places item).imp fun h => List.cons_lt_cons_iff.mpr (.inr ⟨rfl, h⟩)
    · obtain ⟨p, -, rfl⟩ := List.mem_map.mp hp
      obtain ⟨k, address, hq, -⟩ := (mem_placesFrom_iff items).mp hq
      rw [hq]
      exact List.cons_lt_cons_iff.mpr (.inl (by omega))

end

mutual

theorem Item.map_places (guards : List FlagTest) (item : Item α) :
    item.places.map (fun place => (place.value, guards ++ place.tests)) =
      item.occurrences guards := by
  match item with
  | .term value => simp [Item.places, Item.occurrences]
  | .group head members =>
    have hm := map_placesFrom (guards ++ head.test?.toList) 0 members
    simpa [Item.places, Item.occurrences, Place.within, Function.comp_def] using hm

theorem map_placesFrom (guards : List FlagTest) (n : Nat) (items : List (Item α)) :
    (placesFrom n items).map (fun place => (place.value, guards ++ place.tests)) =
      occurrencesUnder guards items := by
  match items with
  | [] => rfl
  | item :: items =>
    have hi := Item.map_places guards item
    have hr := map_placesFrom guards (n + 1) items
    simp [placesFrom, occurrencesUnder, hr, ← hi, Place.below, Function.comp_def]

end

end DepSpec
