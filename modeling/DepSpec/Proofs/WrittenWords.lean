import DepSpec.Parentheses
import DepSpec.Parts
import DepSpec.Proofs.Reading

/-! What the text that a specification was read from loses when it is written again. Blanks shrink
to single spaces, and the parentheses go that stand for an all-of group outside any-of groups. -/

namespace DepSpec

def IsOperatorWord (word : String) : Prop :=
  word = "||" ∨ word.toList.getLast? = some '?'

instance (word : String) : Decidable (IsOperatorWord word) :=
  inferInstanceAs (Decidable (_ ∨ _))

def wordBefore? (ws : List String) : Nat → Option String
  | 0 => none
  | k + 1 => ws[k]?

/-- A pair without an operator directly before it, and the innermost pair around it, if there is
one, is not that of an any-of group. -/
structure IsDispensable (ws : List String) (i j : Nat) : Prop where
  pair : IsPair ws i j
  bare : ∀ word ∈ wordBefore? ws i, ¬ IsOperatorWord word
  outsideChoice : ∀ m n, IsInnermostAround ws i j m n → wordBefore? ws m ≠ some "||"

instance (ws : List String) (i j : Nat) : Decidable (IsDispensable ws i j) :=
  decidable_of_iff
    (IsPair ws i j ∧ (∀ word ∈ wordBefore? ws i, ¬ IsOperatorWord word) ∧
      ∀ m, m < i → ∀ n, n < ws.length → IsInnermostAround ws i j m n →
        wordBefore? ws m ≠ some "||")
    ⟨fun ⟨hp, hb, hm⟩ =>
        ⟨hp, hb, fun m n hin => hm m hin.before n hin.pair.closing_lt_length hin⟩,
      fun ⟨hp, hb, hm⟩ => ⟨hp, hb, fun m _ n _ hin => hm m n hin⟩⟩

def IsDropped (ws : List String) (k : Nat) : Prop :=
  ∃ i j, IsDispensable ws i j ∧ (k = i ∨ k = j)

instance (ws : List String) (k : Nat) : Decidable (IsDropped ws k) :=
  decidable_of_iff
    (∃ i, i < ws.length ∧ ∃ j, j < ws.length ∧ IsDispensable ws i j ∧ (k = i ∨ k = j))
    ⟨fun ⟨i, _, j, _, h⟩ => ⟨i, j, h⟩,
      fun ⟨i, j, h⟩ => by
        have hj := h.1.pair.closing_lt_length
        exact ⟨i, Nat.lt_trans h.1.pair.lt hj, j, hj, h⟩⟩

/-- What is kept of a part of the words that begins at a place. -/
def keptFrom (ws : List String) (p : Nat) (part : List String) : List String :=
  ((part.zipIdx p).filter fun place => ¬ IsDropped ws place.2).map Prod.fst

def keptWords (ws : List String) : List String := keptFrom ws 0 ws

theorem keptFrom_append (ws : List String) (p : Nat) (us vs : List String) :
    keptFrom ws p (us ++ vs) = keptFrom ws p us ++ keptFrom ws (p + us.length) vs := by
  simp [keptFrom, List.zipIdx_append]

theorem keptFrom_singleton (ws : List String) (p : Nat) (word : String) :
    keptFrom ws p [word] = if IsDropped ws p then [] else [word] := by
  by_cases h : IsDropped ws p <;> simp [keptFrom, h]

theorem mem_of_mem_keptFrom {ws part : List String} {p : Nat} {word : String}
    (h : word ∈ keptFrom ws p part) : word ∈ part := by
  obtain ⟨place, hp, rfl⟩ := List.mem_map.mp h
  exact List.fst_mem_of_mem_zipIdx (List.mem_filter.mp hp).1

theorem keptFrom_of_not_isDropped {ws part : List String} {p : Nat}
    (h : ∀ k, p ≤ k → k < p + part.length → ¬ IsDropped ws k) : keptFrom ws p part = part := by
  have hf : ((part.zipIdx p).filter fun place => ¬ IsDropped ws place.2) = part.zipIdx p := by
    refine List.filter_eq_self.mpr fun place hp => ?_
    have hlo := List.le_snd_of_mem_zipIdx hp
    have hhi := List.snd_lt_add_of_mem_zipIdx hp
    simpa using h place.2 hlo (by omega)
  rw [keptFrom, hf, List.zipIdx_map_fst]

section Pairs

variable {ws : List String} {i j k : Nat}

theorem IsPair.isDropped_opening_iff (h : IsPair ws i j) :
    IsDropped ws i ↔ IsDispensable ws i j := by
  refine ⟨?_, fun hd => ⟨i, j, hd, .inl rfl⟩⟩
  rintro ⟨m, n, hd, rfl | rfl⟩
  · rwa [h.closing_unique hd.pair]
  · have hc := hd.pair.closing
    rw [h.opening] at hc
    simp at hc

theorem IsPair.isDropped_closing_iff (h : IsPair ws i j) :
    IsDropped ws j ↔ IsDispensable ws i j := by
  refine ⟨?_, fun hd => ⟨i, j, hd, .inr rfl⟩⟩
  rintro ⟨m, n, hd, rfl | rfl⟩
  · have ho := hd.pair.opening
    rw [h.closing] at ho
    simp at ho
  · rwa [h.opening_unique hd.pair]

theorem IsDropped.weight_ne_zero {word : String} (h : IsDropped ws k) (hk : ws[k]? = some word) :
    weight word ≠ 0 := by
  obtain ⟨i, j, hd, rfl | rfl⟩ := h
  · obtain rfl := Option.some.inj (hk.symm.trans hd.pair.opening)
    decide
  · obtain rfl := Option.some.inj (hk.symm.trans hd.pair.closing)
    decide

end Pairs

/-- The parenthesis that was opened last before a place is that of an any-of group. -/
def InChoice (ws : List String) (p : Nat) : Prop :=
  ∃ m, IsOpenAt ws p m ∧ wordBefore? ws m = some "||"

theorem Balanced.isDispensable_iff {ws : List String} {i j : Nat} (hb : Balanced ws)
    (h : IsPair ws i j) :
    IsDispensable ws i j ↔
      (∀ word ∈ wordBefore? ws i, ¬ IsOperatorWord word) ∧ ¬ InChoice ws i := by
  constructor
  · rintro ⟨-, hbare, hm⟩
    refine ⟨hbare, ?_⟩
    rintro ⟨m, ho, hw⟩
    obtain ⟨n, hn⟩ := (hb.exists_isInnermostAround_iff h).mpr ho
    exact hm m n hn hw
  · rintro ⟨hbare, hc⟩
    refine ⟨h, hbare, fun m n hn hw => hc ⟨m, ?_, hw⟩⟩
    exact (hb.exists_isInnermostAround_iff h).mp ⟨n, hn⟩

theorem Balanced.inChoice_iff {inner : List String} (h : Balanced inner)
    (before after : List String) :
    InChoice (before ++ (inner ++ after)) (before.length + inner.length) ↔
      InChoice (before ++ (inner ++ after)) before.length :=
  exists_congr fun _ => and_congr_left' (h.isOpenAt_iff before after)

/-- An item may begin at the place: no operator is directly before it, and it is in the members of
an any-of group or not. -/
structure IsItemPlace (ws : List String) (p : Nat) (inAnyOf : Bool) : Prop where
  bare : ∀ word ∈ wordBefore? ws p, ¬ IsOperatorWord word
  inChoice_iff : InChoice ws p ↔ inAnyOf = true

theorem isItemPlace_zero (ws : List String) : IsItemPlace ws 0 false := by
  refine ⟨fun word hw => by simp [wordBefore?] at hw, ?_⟩
  simp only [Bool.false_eq_true, iff_false]
  rintro ⟨m, ho, -⟩
  exact Nat.not_lt_zero m ho.lt

theorem IsTermWord.not_isOperatorWord {word : String} (h : IsTermWord word) :
    ¬ IsOperatorWord word := by
  rintro (rfl | hq)
  · exact h.1 '|' (by decide) (by decide)
  · exact h.2 hq

theorem IsTermWord.weight_eq_zero {word : String} (h : IsTermWord word) : weight word = 0 := by
  refine weight_eq_zero_iff.mpr ⟨?_, ?_⟩
  · rintro rfl
    exact h.1 '(' (by decide) (by decide)
  · rintro rfl
    exact h.1 ')' (by decide) (by decide)

theorem IsFlagWord.getLast? {word : String} {test : FlagTest} (h : IsFlagWord word test) :
    word.toList.getLast? = some '?' := by
  simp [h.1]

section Introduces

variable {allowed : AllowedOperators} {introduction : List String} {head : Head}

theorem Introduces.weight_eq_zero (h : Introduces allowed introduction head) :
    ∀ word ∈ introduction, weight word = 0 := by
  intro word hm
  cases h with
  | allOf => simp at hm
  | anyOf ha =>
    obtain rfl := List.mem_singleton.mp hm
    decide
  | when hc hw =>
    obtain rfl := List.mem_singleton.mp hm
    refine weight_eq_zero_iff.mpr ⟨?_, ?_⟩
    · rintro rfl
      exact absurd hw.getLast? (by decide)
    · rintro rfl
      exact absurd hw.getLast? (by decide)

theorem Introduces.wrap_eq (h : Introduces allowed introduction head) (inAnyOf : Bool)
    (parts : List String) :
    head.wrap inAnyOf parts =
      introduction ++
        if head = .allOf ∧ inAnyOf = false then parts else "(" :: (parts ++ [")"]) := by
  cases h with
  | allOf => cases inAnyOf <;> simp [Head.wrap]
  | anyOf ha => simp [Head.wrap]
  | when hc hw => simp [Head.wrap, hw.1]

variable {before after : List String} {inAnyOf : Bool}

theorem Introduces.wordBefore?_iff (h : Introduces allowed introduction head)
    (hp : ∀ word ∈ wordBefore? (before ++ (introduction ++ after)) before.length,
      ¬ IsOperatorWord word) :
    ((∀ word ∈ wordBefore? (before ++ (introduction ++ after))
        (before.length + introduction.length), ¬ IsOperatorWord word) ↔ head = .allOf) ∧
      (wordBefore? (before ++ (introduction ++ after)) (before.length + introduction.length) =
        some "||" ↔ head.isAnyOf = true) := by
  cases h with
  | allOf =>
    -- no word introduces the group, so the one before it is the one before the item
    refine ⟨iff_of_true hp rfl, ?_⟩
    simp only [Head.isAnyOf, Bool.false_eq_true, iff_false]
    exact fun hw => hp "||" hw (.inl rfl)
  | anyOf ha => simp [wordBefore?, IsOperatorWord, Head.isAnyOf]
  | @when word test hc hw =>
    have hne : word ≠ "||" := by
      rintro rfl
      exact absurd hw.getLast? (by decide)
    simp [wordBefore?, IsOperatorWord, Head.isAnyOf, hw.getLast?, hne]

end Introduces

mutual

theorem DerivesItem.balanced {allowed : AllowedOperators} {words : List String}
    (item : Item String) (h : DerivesItem allowed words item) : Balanced words := by
  match item with
  | .term word =>
    cases h with
    | term ht =>
      exact balanced_of_weight_eq_zero (by simpa using ht.weight_eq_zero)
  | .group head members =>
    cases h with
    | group hi hne hm =>
      have hb := Derives.balanced members hm
      exact (balanced_of_weight_eq_zero hi.weight_eq_zero).append hb.wrap

theorem Derives.balanced {allowed : AllowedOperators} {words : List String}
    (items : List (Item String)) (h : Derives allowed words items) : Balanced words := by
  match items with
  | [] =>
    cases h
    exact balanced_of_weight_eq_zero (by simp)
  | item :: items =>
    cases h with
    | cons hi hr => exact (DerivesItem.balanced item hi).append (Derives.balanced items hr)

end

section Places

variable {allowed : AllowedOperators} {ws before words after : List String} {inAnyOf : Bool}

theorem DerivesItem.exists_last {item : Item String} (h : DerivesItem allowed words item) :
    ∃ front word, words = front ++ [word] ∧ ¬ IsOperatorWord word := by
  cases h with
  | @term word ht => exact ⟨[], word, rfl, ht.not_isOperatorWord⟩
  | @group introduction words head members hi hne hm =>
    exact ⟨introduction ++ "(" :: words, ")", by simp, by decide⟩

theorem IsItemPlace.afterItem {item : Item String} (hws : ws = before ++ (words ++ after))
    (h : IsItemPlace ws before.length inAnyOf) (hi : DerivesItem allowed words item) :
    IsItemPlace ws (before ++ words).length inAnyOf := by
  obtain ⟨front, last, he, hlast⟩ := hi.exists_last
  have hl : (before ++ words).length = before.length + front.length + 1 := by
    rw [he, ← List.append_assoc, List.length_append, List.length_append, List.length_singleton]
  have hw : wordBefore? ws (before ++ words).length = some last := by
    rw [hl]
    simp [hws, he, wordBefore?]
  refine ⟨fun word hm => ?_, ?_⟩
  · obtain rfl := Option.some.inj (hw.symm.trans hm)
    exact hlast
  · rw [← h.inChoice_iff, hws, List.length_append]
    exact (hi.balanced item).inChoice_iff before after

theorem IsItemPlace.inside {introduction : List String} {head : Head}
    (hws : ws = before ++ (introduction ++ "(" :: after))
    (h : IsItemPlace ws before.length inAnyOf) (hi : Introduces allowed introduction head) :
    IsItemPlace ws (before ++ introduction ++ ["("]).length head.isAnyOf := by
  subst hws
  have ho : (before ++ (introduction ++ "(" :: after))[before.length + introduction.length]? =
      some "(" := by
    simp
  have hl : (before ++ introduction ++ ["("]).length =
      before.length + introduction.length + 1 := by
    rw [List.length_append, List.length_append, List.length_singleton]
  have hopen := IsOpenAt.of_opening ho
  rw [hl]
  refine ⟨fun word hm => ?_, ?_⟩
  · obtain rfl := Option.some.inj (ho.symm.trans hm)
    decide
  · rw [← (hi.wordBefore?_iff h.bare).2]
    constructor
    · rintro ⟨m, hm, hw⟩
      rwa [hopen.unique hm]
    · exact fun hw => ⟨_, hopen, hw⟩

/-- The parentheses of a group are dropped when it is an all-of group outside any-of groups. -/
theorem IsItemPlace.isDispensable_iff {introduction : List String} {head : Head}
    (hws : ws = before ++ (introduction ++ "(" :: (words ++ ")" :: after)))
    (h : IsItemPlace ws before.length inAnyOf) (hi : Introduces allowed introduction head)
    (hb : Balanced ws) {j : Nat} (hp : IsPair ws (before.length + introduction.length) j) :
    IsDispensable ws (before.length + introduction.length) j ↔
      head = .allOf ∧ inAnyOf = false := by
  have hin : InChoice ws (before.length + introduction.length) ↔ inAnyOf = true := by
    rw [← h.inChoice_iff, hws]
    exact (balanced_of_weight_eq_zero hi.weight_eq_zero).inChoice_iff before _
  subst hws
  rw [hb.isDispensable_iff hp, (hi.wordBefore?_iff h.bare).1, hin, Bool.not_eq_true]

theorem keptFrom_of_weight_eq_zero (hws : ws = before ++ (words ++ after))
    (h : ∀ word ∈ words, weight word = 0) : keptFrom ws before.length words = words := by
  refine keptFrom_of_not_isDropped fun k hlo hhi hd => ?_
  have hlt : k - before.length < words.length := by omega
  have hk : ws[k]? = some words[k - before.length] := by
    rw [hws, List.getElem?_append_right hlo, List.getElem?_append_left hlt,
      List.getElem?_eq_getElem hlt]
  exact hd.weight_ne_zero hk (h _ (List.getElem_mem hlt))

theorem keptFrom_group {introduction : List String} {head : Head}
    (hws : ws = before ++ (introduction ++ "(" :: (words ++ ")" :: after)))
    (h : IsItemPlace ws before.length inAnyOf) (hi : Introduces allowed introduction head)
    (hb : Balanced ws) (hinner : Balanced words) :
    keptFrom ws before.length (introduction ++ "(" :: (words ++ [")"])) =
      head.wrap inAnyOf (keptFrom ws (before ++ introduction ++ ["("]).length words) := by
  have hp : IsPair ws (before.length + introduction.length)
      (before.length + introduction.length + 1 + words.length) := by
    have hpair := hinner.isPair (before ++ introduction) after
    rwa [List.append_assoc, ← hws, List.length_append] at hpair
  -- both parentheses go or both stay, as the head and the place of the group tell
  have hd := h.isDispensable_iff hws hi hb hp
  have hopening := hp.isDropped_opening_iff.trans hd
  have hclosing := hp.isDropped_closing_iff.trans hd
  have hintro := keptFrom_of_weight_eq_zero hws hi.weight_eq_zero
  rw [keptFrom_append, hintro, hi.wrap_eq, ← List.singleton_append, keptFrom_append,
    keptFrom_append, keptFrom_singleton, keptFrom_singleton, List.length_singleton,
    List.length_append, List.length_append, List.length_singleton]
  by_cases hc : head = .allOf ∧ inAnyOf = false
  · rw [if_pos (hopening.mpr hc), if_pos (hclosing.mpr hc), if_pos hc]
    simp
  · rw [if_neg (mt hopening.mp hc), if_neg (mt hclosing.mp hc), if_neg hc]
    simp

end Places

mutual

theorem DerivesItem.keptFrom_eq {allowed : AllowedOperators} {ws before words after : List String}
    {inAnyOf : Bool} (item : Item String) (hi : DerivesItem allowed words item)
    (hws : ws = before ++ (words ++ after)) (hb : Balanced ws)
    (hp : IsItemPlace ws before.length inAnyOf) :
    keptFrom ws before.length words = item.parts id inAnyOf := by
  match item with
  | .term word =>
    cases hi with
    | term ht =>
      exact keptFrom_of_weight_eq_zero hws (by simpa using ht.weight_eq_zero)
  | .group head members =>
    cases hi with
    | @group introduction words _ _ hintro hne hm =>
      have hg : ws = before ++ (introduction ++ "(" :: (words ++ ")" :: after)) := by
        simpa using hws
      have hws' : ws = (before ++ introduction ++ ["("]) ++ (words ++ ")" :: after) := by
        simpa using hg
      have hinner := Derives.keptFrom_eq members hm hws' hb (hp.inside hg hintro)
      rw [keptFrom_group hg hp hintro hb (hm.balanced members), hinner, Item.parts]

/-- Of the words of items in balanced words those are kept that are written again. -/
theorem Derives.keptFrom_eq {allowed : AllowedOperators} {ws before words after : List String}
    {inAnyOf : Bool} (items : List (Item String)) (h : Derives allowed words items)
    (hws : ws = before ++ (words ++ after)) (hb : Balanced ws)
    (hp : IsItemPlace ws before.length inAnyOf) :
    keptFrom ws before.length words = partsOfItems id inAnyOf items := by
  match items with
  | [] =>
    cases h
    rfl
  | item :: items =>
    cases h with
    | @cons first rest _ _ hi hr =>
      rw [List.append_assoc] at hws
      have hws' : ws = (before ++ first) ++ (rest ++ after) := by simpa using hws
      have hfirst := DerivesItem.keptFrom_eq item hi hws hb hp
      have hrest := Derives.keptFrom_eq items hr hws' hb (hp.afterItem hws hi)
      rw [List.length_append] at hrest
      rw [keptFrom_append, hfirst, hrest, partsOfItems]

end

theorem keptWords_eq_parts {text : String} {spec : Spec String} (h : parseText text = .ok spec) :
    keptWords (words text) = spec.parts id := by
  obtain ⟨hd, -⟩ := parseWords_eq_ok_iff.mp h
  have hws : words text = [] ++ (words text ++ []) := by simp
  rw [Spec.parts_eq_partsOfItems]
  exact Derives.keptFrom_eq spec.items hd hws (hd.balanced spec.items) (isItemPlace_zero _)

/-- A text is written again with one space between its words, without the parentheses of the pairs
that are dispensable among these. -/
theorem Spec.text_eq_intercalate_keptWords (text : String) (spec : Spec String)
    (h : parseText text = .ok spec) :
    spec.text = " ".intercalate (keptWords (words text)) ∧
      ((∀ i j, ¬ IsDispensable (words text) i j) → spec.text = " ".intercalate (words text)) := by
  have hne : ∀ word ∈ keptWords (words text), word ≠ "" := fun word hm =>
    (isWord_of_mem_words (mem_of_mem_keptFrom hm)).1
  have ht : spec.text = " ".intercalate (keptWords (words text)) := by
    rw [Spec.text, Spec.render, ← keptWords_eq_parts h, spaced_eq_intercalate hne]
  refine ⟨ht, fun hn => ?_⟩
  have hk : keptWords (words text) = words text := by
    refine keptFrom_of_not_isDropped fun k _ _ => ?_
    rintro ⟨i, j, hd, -⟩
    exact hn i j hd
  rw [ht, hk]

theorem Spec.text_eq_intercalate_keptWords_nestedSpec :
    let spec : Spec String :=
      ⟨[.group .allOf [.term "a"],
        .group .anyOf [.group .allOf [.group .allOf [.term "b"], .term "c"], .term "d"]], false⟩
    let flat : Spec String := ⟨[.group (.when ⟨"x", true⟩) [.term "a", .term "b"]], true⟩
    (parseText " ( a )\n|| ( ( ( b ) c )  d ) " = .ok spec ∧
      keptWords (words " ( a )\n|| ( ( ( b ) c )  d ) ") =
        ["a", "||", "(", "(", "b", "c", ")", "d", ")"] ∧
      spec.text = "a || ( ( b c ) d )") ∧
    parseText "!x? ( a\tb ) " = .ok flat ∧
      (∀ i j, ¬ IsDispensable (words "!x? ( a\tb ) ") i j) ∧ flat.text = "!x? ( a b )" := by
  intro spec flat
  have hs : parseText " ( a )\n|| ( ( ( b ) c )  d ) " = .ok spec := rfl
  have hf : parseText "!x? ( a\tb ) " = .ok flat := rfl
  obtain ⟨ht, -⟩ := text_eq_intercalate_keptWords _ spec hs
  obtain ⟨-, hu⟩ := text_eq_intercalate_keptWords _ flat hf
  have hk : keptWords (words " ( a )\n|| ( ( ( b ) c )  d ) ") =
      ["a", "||", "(", "(", "b", "c", ")", "d", ")"] := by
    decide +kernel
  have hd : ∀ k, k < 5 → ¬ IsDropped (words "!x? ( a\tb ) ") k := by decide +kernel
  have hn : ∀ i j, ¬ IsDispensable (words "!x? ( a\tb ) ") i j := fun i j h =>
    hd j h.pair.closing_lt_length ⟨i, j, h, .inr rfl⟩
  rw [hk] at ht
  exact ⟨⟨hs, hk, ht⟩, hf, hn, hu hn⟩

end DepSpec
