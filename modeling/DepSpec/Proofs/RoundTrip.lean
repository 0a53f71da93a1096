import DepSpec.Parts
import DepSpec.Proofs.FlatForm
import DepSpec.Proofs.Reading

/-! Reading the text of a specification gives its flat form, with the terms put into text, if the
terms and flags are legible. It does so in no other case, as whatever is read is legible. -/

namespace DepSpec

variable {α : Type}

theorem FlagTest.toList_text_questionMark (test : FlagTest) :
    (test.text ++ "?").toList =
      (if test.negated then ['!'] else []) ++ (test.flag.toList ++ ['?']) := by
  unfold text
  cases test.negated <;> simp

theorem FlagTest.isWord_text_iff {test : FlagTest} (hne : test.flag ≠ "") :
    IsWord (test.text ++ "?") ↔ IsWord test.flag := by
  have hm : isBlank '!' = false := by decide
  have hq : isBlank '?' = false := by decide
  have ht : test.text ++ "?" ≠ "" := by
    intro he
    have hl := toList_text_questionMark test
    rw [he] at hl
    simp at hl
  unfold IsWord
  rw [toList_text_questionMark]
  constructor
  · rintro ⟨-, h⟩
    refine ⟨hne, fun c hc => h c ?_⟩
    simp [hc]
  · rintro ⟨-, h⟩
    refine ⟨ht, fun c hc => ?_⟩
    rcases List.mem_append.mp hc with hc | hc
    · cases hn : test.negated <;> simp [hn] at hc
      rwa [hc]
    · rcases List.mem_append.mp hc with hc | hc
      · exact h c hc
      · rwa [List.mem_singleton.mp hc]

theorem Head.mem_wrap {head : Head} {inAnyOf : Bool} {part : String} {parts : List String}
    (h : part ∈ head.wrap inAnyOf parts) :
    part ∈ ["(", ")", "||"] ∨ part ∈ parts ∨
      ∃ test, head.test? = some test ∧ part = test.text ++ "?" := by
  cases head with
  | allOf =>
    cases inAnyOf <;> simp [wrap] at h
    · exact .inr (.inl h)
    · rcases h with h | h | h <;> simp [h]
  | anyOf =>
    simp only [wrap, List.mem_cons, List.mem_append, List.not_mem_nil, or_false] at h
    rcases h with h | h | h | h <;> simp [h]
  | when test =>
    simp only [wrap, List.mem_cons, List.mem_append, List.not_mem_nil, or_false] at h
    rcases h with h | h | h | h <;> simp [h, test?]

mutual

theorem Item.mem_parts {text : α → String} {inAnyOf : Bool} {part : String} (item : Item α)
    (h : part ∈ item.parts text inAnyOf) :
    part ∈ ["(", ")", "||"] ∨ (∃ value ∈ item.terms, part = text value) ∨
      ∃ test ∈ item.tests, part = test.text ++ "?" := by
  match item with
  | .term value =>
    refine .inr (.inl ⟨value, by simp [Item.terms], ?_⟩)
    simpa [Item.parts] using h
  | .group head members =>
    rw [Item.parts] at h
    rcases Head.mem_wrap h with hp | hp | ⟨test, hh, rfl⟩
    · exact .inl hp
    · rcases mem_partsOfItems members hp with hp | hp | ⟨test, ht, hp⟩
      · exact .inl hp
      · exact .inr (.inl (by simpa [Item.terms] using hp))
      · exact .inr (.inr ⟨test, by simp [Item.tests, ht], hp⟩)
    · exact .inr (.inr ⟨test, by simp [Item.tests, hh], rfl⟩)

theorem mem_partsOfItems {text : α → String} {inAnyOf : Bool} {part : String}
    (items : List (Item α)) (h : part ∈ partsOfItems text inAnyOf items) :
    part ∈ ["(", ")", "||"] ∨ (∃ value ∈ termsOfItems items, part = text value) ∨
      ∃ test ∈ testsOfItems items, part = test.text ++ "?" := by
  match items with
  | [] => simp [partsOfItems] at h
  | item :: items =>
    rw [partsOfItems] at h
    rcases List.mem_append.mp h with h | h
    · rcases Item.mem_parts item h with hp | ⟨value, hv, hp⟩ | ⟨test, ht, hp⟩
      · exact .inl hp
      · exact .inr (.inl ⟨value, by simp [termsOfItems, hv], hp⟩)
      · exact .inr (.inr ⟨test, by simp [testsOfItems, ht], hp⟩)
    · rcases mem_partsOfItems items h with hp | ⟨value, hv, hp⟩ | ⟨test, ht, hp⟩
      · exact .inl hp
      · exact .inr (.inl ⟨value, by simp [termsOfItems, hv], hp⟩)
      · exact .inr (.inr ⟨test, by simp [testsOfItems, ht], hp⟩)

end

mutual

theorem Item.derives_parts (text : α → String) (inAnyOf : Bool) (item : Item α)
    (hw : item.WellFormed) (ht : ∀ value ∈ item.terms, IsTermWord (text value))
    (hf : ∀ test ∈ item.tests, IsFlagName test.flag) :
    Derives .default (item.parts text inAnyOf) ((item.map text).flattened inAnyOf) := by
  match item with
  | .term value => exact .single (.term (ht value (by simp [Item.terms])))
  | .group head members =>
    rw [Item.WellFormed] at hw
    have hfm : ∀ test ∈ testsOfItems members, IsFlagName test.flag := fun test hm =>
      hf test (by simp [Item.tests, hm])
    have hm := derives_partsOfItems text head.isAnyOf members hw.2 ht hfm
    have hne : flattenedItems head.isAnyOf (Item.mapAll text members) ≠ [] :=
      (WellFormedItems.mapAll text members hw.2).flattened_ne_nil (Item.mapAll_ne_nil hw.1)
    cases head with
    | allOf =>
      cases inAnyOf with
      | false => simpa [Item.parts, Item.map, Item.flattened, Head.wrap, Head.isAnyOf] using hm
      | true =>
        simpa [Item.parts, Item.map, Item.flattened, Head.wrap, Head.isAnyOf] using
          Derives.single (.group .allOf hne hm)
    | anyOf =>
      simpa [Item.parts, Item.map, Item.flattened, Head.wrap, Head.isAnyOf] using
        Derives.single (.group (.anyOf rfl) hne hm)
    | when test =>
      have hi : Introduces .default [test.text ++ "?"] (.when test) :=
        .when rfl ⟨rfl, hf test (by simp [Item.tests, Head.test?])⟩
      simpa [Item.parts, Item.map, Item.flattened, Head.wrap, Head.isAnyOf] using
        Derives.single (.group hi hne hm)

theorem derives_partsOfItems (text : α → String) (inAnyOf : Bool) (items : List (Item α))
    (hw : WellFormedItems items) (ht : ∀ value ∈ termsOfItems items, IsTermWord (text value))
    (hf : ∀ test ∈ testsOfItems items, IsFlagName test.flag) :
    Derives .default (partsOfItems text inAnyOf items)
      (flattenedItems inAnyOf (Item.mapAll text items)) := by
  match items with
  | [] => exact .nil
  | item :: items =>
    rw [WellFormedItems] at hw
    have hi := Item.derives_parts text inAnyOf item hw.1
      (fun value hv => ht value (by simp [termsOfItems, hv]))
      (fun test hv => hf test (by simp [testsOfItems, hv]))
    have hr := derives_partsOfItems text inAnyOf items hw.2
      (fun value hv => ht value (by simp [termsOfItems, hv]))
      (fun test hv => hf test (by simp [testsOfItems, hv]))
    exact hi.append hr

end

theorem Spec.Legible.words_render {text : α → String} {spec : Spec α} (h : spec.Legible text) :
    words (spec.render text) = partsOfItems text false spec.items := by
  rw [render, parts_eq_partsOfItems]
  refine words_spaced fun part hp => ?_
  rcases mem_partsOfItems spec.items hp with hp | ⟨value, hv, rfl⟩ | ⟨test, ht, rfl⟩
  · have hs : ∀ word ∈ ["(", ")", "||"], IsWord word := by simp [IsWord, isBlank]
    exact hs part hp
  · exact (h.terms value hv).1
  · obtain ⟨hw, hn⟩ := h.flags test ht
    exact (FlagTest.isWord_text_iff hn.1).mpr hw

theorem Spec.Legible.parseText_render {text : α → String} {spec : Spec α}
    (h : spec.Legible text) (hw : spec.WellFormed) :
    parseText (spec.render text) = .ok (spec.map text).flattened := by
  rw [parseText, parseWords_eq_ok_iff, h.words_render, Spec.map_eq, flattened]
  refine ⟨?_, ?_⟩
  · exact derives_partsOfItems text false spec.items hw.1 (fun value hv => (h.terms value hv).2)
      fun test ht => (h.flags test ht).2
  · rw [testsOfItems_flattenedItems, testsOfItems_mapAll]
    exact hw.2

theorem Spec.legible_of_parseWords {allowed : AllowedOperators} {text : String}
    {spec : Spec String} (h : parseWords allowed text = .ok spec) : spec.Legible id := by
  obtain ⟨hd, -⟩ := parseWords_eq_ok_iff.mp h
  constructor
  · intro value hv
    rw [← hd.filterMap_term?] at hv
    obtain ⟨word, hm, hw⟩ := List.mem_filterMap.mp hv
    unfold Token.term? at hw
    split at hw
    · rename_i ht
      obtain rfl := Option.some.inj hw
      exact ⟨isWord_of_mem_words hm, Token.ofString_eq_term_iff.mp ht⟩
    · simp at hw
  · intro test ht
    rw [← hd.filterMap_test?] at ht
    obtain ⟨word, hm, hw⟩ := List.mem_filterMap.mp ht
    obtain ⟨rfl, hn⟩ := Token.test?_eq_some_iff.mp hw
    exact ⟨(FlagTest.isWord_text_iff hn.1).mp (isWord_of_mem_words hm), hn⟩

theorem Spec.legible_map_flattened_iff {text : α → String} {spec : Spec α} :
    (spec.map text).flattened.Legible id ↔ spec.Legible text := by
  have ht : termsOfItems (spec.map text).flattened.items = (termsOfItems spec.items).map text := by
    rw [flattened, Spec.map_eq, termsOfItems_flattenedItems, termsOfItems_mapAll]
  have hf : testsOfItems (spec.map text).flattened.items = testsOfItems spec.items := by
    rw [flattened, Spec.map_eq, testsOfItems_flattenedItems, testsOfItems_mapAll]
  constructor
  · intro h
    refine ⟨fun value hv => h.terms (text value) ?_, fun test hm => h.flags test (by rwa [hf])⟩
    rw [ht]
    exact List.mem_map_of_mem hv
  · intro h
    refine ⟨fun word hm => ?_, fun test hm => h.flags test (by rwa [hf] at hm)⟩
    rw [ht] at hm
    obtain ⟨value, hv, rfl⟩ := List.mem_map.mp hm
    exact h.terms value hv

/-- A specification is read back from its text, in its flat form, exactly if it is legible; and as
it was exactly if, besides, it was flat. -/
theorem Spec.parseText_render_eq_ok_iff (text : α → String) (spec : Spec α)
    (hw : spec.WellFormed) :
    (parseText (spec.render text) = .ok (spec.map text).flattened ↔ spec.Legible text) ∧
      (spec.Legible text →
        (parseText (spec.render text) = .ok (spec.map text) ↔
          FlatItems false (spec.map text).items)) := by
  refine ⟨⟨fun h => ?_, fun h => h.parseText_render hw⟩, fun h => ?_⟩
  · exact legible_map_flattened_iff.mp (legible_of_parseWords h)
  · rw [h.parseText_render hw, Except.ok.injEq, flattened_eq_self_iff]

example : parseText ((Spec.ofItems [.group (.when ⟨"!x", false⟩) [.term "a"]]).text) =
    .ok ⟨[.group (.when ⟨"x", true⟩) [.term "a"]], true⟩ := by
  cbv

/-- A conjunction in an any-of group, and another in a conditional on a flag with a parenthesis. -/
def nestedSpec : Spec String :=
  .ofItems [.group .anyOf [.group .allOf [.term "a"], .term "b"],
    .group (.when ⟨"(x", true⟩) [.group .allOf [.term "c"]]]

theorem nestedSpec_wellFormed : nestedSpec.WellFormed :=
  Spec.wellFormed_ofItems (by simp [WellFormedItems, Item.WellFormed])

theorem nestedSpec_legible : nestedSpec.Legible id := by
  constructor
  · have h : ∀ value ∈ ["a", "b", "c"], IsWord value ∧ IsTermWord value := by
      simp [IsWord, isBlank, IsTermWord]
    simpa [nestedSpec, Spec.ofItems, termsOfItems, Item.terms] using h
  · have h : ∀ test ∈ [(⟨"(x", true⟩ : FlagTest)], IsWord test.flag ∧ IsFlagName test.flag := by
      simp [IsWord, isBlank, IsFlagName]
    simpa [nestedSpec, Spec.ofItems, testsOfItems, Item.tests, Head.test?] using h

theorem Spec.parseText_render_nestedSpec :
    nestedSpec.WellFormed ∧ nestedSpec.Legible id ∧
      parseText (nestedSpec.render id) = .ok (nestedSpec.map id).flattened ∧
      parseText (nestedSpec.render id) ≠ .ok (nestedSpec.map id) := by
  obtain ⟨hf, hs⟩ := parseText_render_eq_ok_iff id nestedSpec nestedSpec_wellFormed
  refine ⟨nestedSpec_wellFormed, nestedSpec_legible, hf.mpr nestedSpec_legible, fun h => ?_⟩
  have hflat := (hs nestedSpec_legible).mp h
  simp [nestedSpec, map_eq, ofItems, Item.mapAll, Item.map, FlatItems, Item.Flat] at hflat

end DepSpec
