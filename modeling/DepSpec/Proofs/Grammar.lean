import DepSpec.Legible

/-! The grammar of specifications, as a relation between words and the items they derive. Words of
terms and of flags are, in order, the terms and the tests of the derived items. Fewer operators
derive the same items, as far as their heads are permitted. -/

namespace DepSpec

/-- The words that introduce a group with a given head, as far as it is allowed. -/
inductive Introduces (allowed : AllowedOperators) : List String → Head → Prop
  | allOf : Introduces allowed [] .allOf
  | anyOf (h : allowed.anyOf = true) : Introduces allowed ["||"] .anyOf
  | when {word : String} {test : FlagTest} (h : allowed.conditional = true)
      (hw : IsFlagWord word test) : Introduces allowed [word] (.when test)

mutual

inductive DerivesItem (allowed : AllowedOperators) : List String → Item String → Prop
  | term {word : String} (h : IsTermWord word) : DerivesItem allowed [word] (.term word)
  | group {introduction words : List String} {head : Head} {members : List (Item String)}
      (hi : Introduces allowed introduction head) (hne : members ≠ [])
      (hm : Derives allowed words members) :
      DerivesItem allowed (introduction ++ "(" :: (words ++ [")"])) (.group head members)

inductive Derives (allowed : AllowedOperators) : List String → List (Item String) → Prop
  | nil : Derives allowed [] []
  | cons {first rest : List String} {item : Item String} {items : List (Item String)}
      (hi : DerivesItem allowed first item) (hr : Derives allowed rest items) :
      Derives allowed (first ++ rest) (item :: items)

end

theorem Derives.append {allowed : AllowedOperators} {us vs : List String}
    {xs ys : List (Item String)} (hx : Derives allowed us xs) (hy : Derives allowed vs ys) :
    Derives allowed (us ++ vs) (xs ++ ys) := by
  induction xs generalizing us with
  | nil =>
    cases hx
    exact hy
  | cons x xs ih =>
    cases hx with
    | cons hi hr =>
      rw [List.append_assoc]
      exact .cons hi (ih hr)

namespace Token

theorem ofString_eq_opening_iff {token : String} : ofString token = .opening ↔ token = "(" := by
  unfold ofString
  split
  · simp [*]
  · rename_i hne
    simp only [hne, iff_false]
    repeat' split
    all_goals simp

theorem ofString_eq_closing_iff {token : String} : ofString token = .closing ↔ token = ")" := by
  unfold ofString
  split
  · simp [*]
  · split
    · simp [*]
    · rename_i hne
      simp only [hne, iff_false]
      repeat' split
      all_goals simp

theorem ofString_eq_anyOf_iff {token : String} : ofString token = .anyOf ↔ token = "||" := by
  unfold ofString
  split
  · simp [*]
  · split
    · simp [*]
    · split
      · simp [*]
      · rename_i hne
        simp only [hne, iff_false]
        repeat' split
        all_goals simp

/-- The word of a term, if the token is one. -/
def term? (word : String) : Option String :=
  if ofString word = .term then some word else none

def test? (word : String) : Option FlagTest :=
  match ofString word with
  | .flag test? => test?
  | _ => none

theorem test?_eq_some_iff {word : String} {test : FlagTest} :
    test? word = some test ↔ IsFlagWord word test := by
  rw [← ofString_eq_flag_iff, test?]
  split
  · simp [*]
  · rename_i hx
    simp only [reduceCtorEq, false_iff]
    exact hx (some test)

theorem term?_of_isTermWord {word : String} (h : IsTermWord word) : term? word = some word := by
  simp [term?, ofString_eq_term_iff.mpr h]

theorem test?_of_isTermWord {word : String} (h : IsTermWord word) : test? word = none := by
  simp [test?, ofString_eq_term_iff.mpr h]

end Token

variable {allowed : AllowedOperators}

theorem Derives.single {words : List String} {item : Item String}
    (h : DerivesItem allowed words item) : Derives allowed words [item] := by
  simpa using Derives.cons h .nil

theorem Introduces.filterMap_term? {words : List String} {head : Head}
    (h : Introduces allowed words head) : words.filterMap Token.term? = [] := by
  cases h with
  | allOf => rfl
  | anyOf ha => decide
  | when hc hw => simp [Token.term?, Token.ofString_eq_flag_iff.mpr hw]

theorem Introduces.filterMap_test? {words : List String} {head : Head}
    (h : Introduces allowed words head) : words.filterMap Token.test? = head.test?.toList := by
  cases h with
  | allOf => rfl
  | anyOf ha => decide
  | when hc hw => simp [Token.test?_eq_some_iff.mpr hw, Head.test?]

mutual

theorem DerivesItem.filterMap_term? {words : List String} (item : Item String)
    (h : DerivesItem allowed words item) : words.filterMap Token.term? = item.terms := by
  match item with
  | .term word =>
    cases h with
    | term ht => simp [Token.term?_of_isTermWord ht, Item.terms]
  | .group head members =>
    cases h with
    | group hi hne hm =>
      have hd := Derives.filterMap_term? members hm
      have ho : Token.term? "(" = none := by decide
      have hc : Token.term? ")" = none := by decide
      simp [hi.filterMap_term?, hd, ho, hc, Item.terms]

theorem Derives.filterMap_term? {words : List String} (items : List (Item String))
    (h : Derives allowed words items) : words.filterMap Token.term? = termsOfItems items := by
  match items with
  | [] =>
    cases h
    rfl
  | item :: items =>
    cases h with
    | cons hi hr =>
      rw [List.filterMap_append, DerivesItem.filterMap_term? item hi,
        Derives.filterMap_term? items hr, termsOfItems]

end

mutual

theorem DerivesItem.filterMap_test? {words : List String} (item : Item String)
    (h : DerivesItem allowed words item) : words.filterMap Token.test? = item.tests := by
  match item with
  | .term word =>
    cases h with
    | term ht => simp [Token.test?_of_isTermWord ht, Item.tests]
  | .group head members =>
    cases h with
    | group hi hne hm =>
      have hd := Derives.filterMap_test? members hm
      have ho : Token.test? "(" = none := by decide
      have hc : Token.test? ")" = none := by decide
      simp [hi.filterMap_test?, hd, ho, hc, Item.tests]

theorem Derives.filterMap_test? {words : List String} (items : List (Item String))
    (h : Derives allowed words items) : words.filterMap Token.test? = testsOfItems items := by
  match items with
  | [] =>
    cases h
    rfl
  | item :: items =>
    cases h with
    | cons hi hr =>
      rw [List.filterMap_append, DerivesItem.filterMap_test? item hi,
        Derives.filterMap_test? items hr, testsOfItems]

end

namespace AllowedOperators

def permits (allowed : AllowedOperators) : Head → Bool
  | .allOf => true
  | .anyOf => allowed.anyOf
  | .when _ => allowed.conditional

end AllowedOperators

mutual

/-- Every group, at any depth, has a head that is permitted. -/
def Item.Permitted {α : Type} (allowed : AllowedOperators) : Item α → Prop
  | .term _ => True
  | .group head members => allowed.permits head = true ∧ PermittedItems allowed members

def PermittedItems {α : Type} (allowed : AllowedOperators) : List (Item α) → Prop
  | [] => True
  | item :: items => item.Permitted allowed ∧ PermittedItems allowed items

end

theorem Introduces.iff_permits {words : List String} {head : Head} :
    Introduces allowed words head ↔
      Introduces .default words head ∧ allowed.permits head = true := by
  constructor
  · intro h
    cases h with
    | allOf => exact ⟨.allOf, rfl⟩
    | anyOf ha => exact ⟨.anyOf rfl, ha⟩
    | when hc hw => exact ⟨.when rfl hw, hc⟩
  · rintro ⟨h, hp⟩
    cases h with
    | allOf => exact .allOf
    | anyOf ha => exact .anyOf hp
    | when hc hw => exact .when hp hw

mutual

theorem DerivesItem.iff_permitted {words : List String} (item : Item String) :
    DerivesItem allowed words item ↔
      DerivesItem .default words item ∧ item.Permitted allowed := by
  match item with
  | .term word =>
    constructor
    · rintro ⟨ht⟩
      exact ⟨.term ht, trivial⟩
    · rintro ⟨⟨ht⟩, -⟩
      exact .term ht
  | .group head members =>
    constructor
    · intro h
      cases h with
      | group hi hne hm =>
        obtain ⟨hi, hp⟩ := Introduces.iff_permits.mp hi
        obtain ⟨hm, hr⟩ := (Derives.iff_permitted members).mp hm
        exact ⟨.group hi hne hm, hp, hr⟩
    · rintro ⟨h, hp, hr⟩
      cases h with
      | group hi hne hm =>
        exact .group (Introduces.iff_permits.mpr ⟨hi, hp⟩) hne
          ((Derives.iff_permitted members).mpr ⟨hm, hr⟩)

theorem Derives.iff_permitted {words : List String} (items : List (Item String)) :
    Derives allowed words items ↔ Derives .default words items ∧ PermittedItems allowed items := by
  match items with
  | [] =>
    constructor
    · rintro ⟨⟩
      exact ⟨.nil, trivial⟩
    · rintro ⟨⟨⟩, -⟩
      exact .nil
  | item :: items =>
    constructor
    · intro h
      cases h with
      | cons hi hr =>
        obtain ⟨hi, hpi⟩ := (DerivesItem.iff_permitted item).mp hi
        obtain ⟨hr, hpr⟩ := (Derives.iff_permitted items).mp hr
        exact ⟨.cons hi hr, hpi, hpr⟩
    · rintro ⟨h, hpi, hpr⟩
      cases h with
      | cons hi hr =>
        exact .cons ((DerivesItem.iff_permitted item).mpr ⟨hi, hpi⟩)
          ((Derives.iff_permitted items).mpr ⟨hr, hpr⟩)

end

mutual

theorem Item.permitted_withoutConditional {α : Type} (item : Item α) :
    item.Permitted { allowed with conditional := false } ↔
      item.Permitted allowed ∧ item.tests = [] := by
  match item with
  | .term value => simp [Item.Permitted, Item.tests]
  | .group head members =>
    have hm := permittedItems_withoutConditional members
    cases head with
    | allOf => simp [Item.Permitted, Item.tests, AllowedOperators.permits, Head.test?, hm]
    | anyOf =>
      simp [Item.Permitted, Item.tests, AllowedOperators.permits, Head.test?, hm, and_assoc]
    | when test => simp [Item.Permitted, Item.tests, AllowedOperators.permits, Head.test?]

theorem permittedItems_withoutConditional {α : Type} (items : List (Item α)) :
    PermittedItems { allowed with conditional := false } items ↔
      PermittedItems allowed items ∧ testsOfItems items = [] := by
  match items with
  | [] => simp [PermittedItems, testsOfItems]
  | item :: items =>
    rw [PermittedItems, Item.permitted_withoutConditional item,
      permittedItems_withoutConditional items, and_and_and_comm, PermittedItems, testsOfItems,
      List.append_eq_nil_iff]

end

/-- A derivation gets by without flags exactly when its items have no tests. -/
theorem Derives.withoutConditional_iff {words : List String} {items : List (Item String)}
    (h : Derives allowed words items) :
    Derives { allowed with conditional := false } words items ↔ testsOfItems items = [] := by
  obtain ⟨hd, hp⟩ := (Derives.iff_permitted items).mp h
  rw [Derives.iff_permitted, permittedItems_withoutConditional]
  exact ⟨fun hh => hh.2.2, fun ht => ⟨hd, hp, ht⟩⟩

end DepSpec
