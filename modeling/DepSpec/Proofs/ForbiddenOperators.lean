import DepSpec.Proofs.Reading

/-! Reading with fewer operators. A reader agrees with the one that allows all of them up to the
first operator that it forbids, and is at fault there; so it reads the specifications whose groups
are all permitted, and reads them the same. -/

namespace DepSpec

variable {α : Type} {allowed : AllowedOperators} {readTerm : String → Except String α}

mutual

/-- The heads of an item and of all groups in it. -/
def Item.heads : Item α → List Head
  | .term _ => []
  | .group head members => head :: headsOfItems members

def headsOfItems : List (Item α) → List Head
  | [] => []
  | item :: items => item.heads ++ headsOfItems items

end

theorem headsOfItems_append (xs ys : List (Item α)) :
    headsOfItems (xs ++ ys) = headsOfItems xs ++ headsOfItems ys := by
  induction xs with
  | nil => rfl
  | cons x xs ih => simp [headsOfItems, ih]

mutual

theorem Item.permitted_iff_heads (item : Item α) :
    item.Permitted allowed ↔ ∀ head ∈ item.heads, allowed.permits head = true := by
  match item with
  | .term value => simp [Item.Permitted, Item.heads]
  | .group head members =>
    rw [Item.Permitted, permittedItems_iff_heads members, Item.heads, List.forall_mem_cons]

theorem permittedItems_iff_heads (items : List (Item α)) :
    PermittedItems allowed items ↔ ∀ head ∈ headsOfItems items, allowed.permits head = true := by
  match items with
  | [] => simp [PermittedItems, headsOfItems]
  | item :: items =>
    rw [PermittedItems, Item.permitted_iff_heads item, permittedItems_iff_heads items,
      headsOfItems, List.forall_mem_append]

end

theorem permittedItems_iff {items : List (Item α)} :
    PermittedItems allowed items ↔
      (allowed.anyOf = false → .anyOf ∉ headsOfItems items) ∧
        (allowed.conditional = false → ∀ test, .when test ∉ headsOfItems items) := by
  rw [permittedItems_iff_heads]
  constructor
  · intro h
    refine ⟨fun ha hm => ?_, fun hc test hm => ?_⟩
    · exact absurd (h .anyOf hm) (by simp [AllowedOperators.permits, ha])
    · exact absurd (h (.when test) hm) (by simp [AllowedOperators.permits, hc])
  · rintro ⟨ha, hc⟩ head hm
    cases head with
    | allOf => rfl
    | anyOf =>
      cases h : allowed.anyOf with
      | false => exact absurd hm (ha h)
      | true => exact h
    | when test =>
      cases h : allowed.conditional with
      | false => exact absurd hm (hc h test)
      | true => exact h

def Token.isOperator (word : String) : Bool :=
  match ofString word with
  | .anyOf | .flag _ => true
  | _ => false

/-- The word would introduce a group that is not allowed. -/
def AllowedOperators.forbids (allowed : AllowedOperators) (word : String) : Bool :=
  match Token.ofString word with
  | .anyOf => !allowed.anyOf
  | .flag _ => !allowed.conditional
  | _ => false

namespace Reader

/-- After an operator its parenthesis must come, so no word is taken for another operator there. -/
def takesForOperator (reader : Reader α) (word : String) : Bool :=
  reader.operator.isNone && Token.isOperator word

/-- The words that are taken for operators, as far as the reader gets. -/
def operatorsRead (allowed : AllowedOperators) (readTerm : String → Except String α) :
    Reader α → List String → List String
  | _, [] => []
  | reader, word :: words =>
    let later := match reader.readWord allowed readTerm word with
      | .ok next => next.operatorsRead allowed readTerm words
      | .error _ => []
    if reader.takesForOperator word then word :: later else later

theorem readWord_eq_default (reader : Reader α) (word : String) :
    reader.readWord allowed readTerm word =
      if reader.takesForOperator word && allowed.forbids word then
        .error (.grammar .operatorNotAllowed (some word))
      else reader.readWord .default readTerm word := by
  unfold takesForOperator Token.isOperator AllowedOperators.forbids readWord
  cases reader.operator with
  | some awaited => cases Token.ofString word <;> rfl
  | none =>
    cases Token.ofString word with
    | anyOf => cases ha : allowed.anyOf <;> simp [AllowedOperators.default]
    | flag test? =>
      -- a flag that is not well-formed is forbidden before that is looked at
      cases hc : allowed.conditional <;>
        simp [AllowedOperators.conditionalHead, AllowedOperators.default, hc]
    | opening => rfl
    | closing => rfl
    | stray => rfl
    | term => rfl

theorem find?_operatorsRead_cons (reader : Reader α) (word : String) (words : List String)
    (granted : AllowedOperators) :
    (reader.operatorsRead granted readTerm (word :: words)).find? allowed.forbids =
      if reader.takesForOperator word && allowed.forbids word then some word
      else match reader.readWord granted readTerm word with
        | .ok next => (next.operatorsRead granted readTerm words).find? allowed.forbids
        | .error _ => none := by
  rw [operatorsRead]
  cases reader.readWord granted readTerm word <;> cases reader.takesForOperator word <;>
    cases hf : allowed.forbids word <;> simp [hf]

theorem run_result_eq_match (reader : Reader α) (words : List String) :
    (reader.run allowed readTerm words).result =
      match (reader.operatorsRead .default readTerm words).find? allowed.forbids with
      | none => (reader.run .default readTerm words).result
      | some word => .error (.grammar .operatorNotAllowed (some word)) := by
  induction words generalizing reader with
  | nil => rfl
  | cons word words ih =>
    -- as long as no operator is forbidden both readers come to the same next reader
    rw [find?_operatorsRead_cons, run_cons, run_cons, readWord_eq_default]
    cases reader.takesForOperator word && allowed.forbids word with
    | true => rfl
    | false =>
      cases reader.readWord .default readTerm word with
      | ok next => exact ih next
      | error fault => rfl

/-- Both readers take the same words for operators up to the first that is forbidden. -/
theorem find?_operatorsRead (reader : Reader α) (words : List String) :
    (reader.operatorsRead allowed readTerm words).find? allowed.forbids =
      (reader.operatorsRead .default readTerm words).find? allowed.forbids := by
  induction words generalizing reader with
  | nil => rfl
  | cons word words ih =>
    rw [find?_operatorsRead_cons, find?_operatorsRead_cons, readWord_eq_default]
    cases reader.takesForOperator word && allowed.forbids word with
    | true => rfl
    | false =>
      cases reader.readWord .default readTerm word with
      | ok next => exact ih next
      | error fault => rfl

end Reader

def operatorsRead (allowed : AllowedOperators) (text : String) : List String :=
  Reader.start.operatorsRead allowed .ok (words text)

theorem parseWords_eq_of_find?_operatorsRead (allowed : AllowedOperators) (text : String) :
    parseWords allowed text =
      match (operatorsRead .default text).find? allowed.forbids with
      | none => parseText text
      | some word => .error ⟨text, .grammar .operatorNotAllowed (some word)⟩ := by
  rw [parseWords, parse_eq, Reader.run_result_eq_match, operatorsRead]
  cases (Reader.start.operatorsRead .default .ok (words text)).find? allowed.forbids <;> rfl

/-- With fewer operators the same specifications are read from the same texts, as far as their
groups are permitted. What else was read is now refused for the first word, of those taken for
operators, that is forbidden; any other text is refused as before or for that word. -/
theorem parseWords_eq_ok_iff_permitted (allowed : AllowedOperators) (text : String) :
    (∀ spec, parseWords allowed text = .ok spec ↔
        parseText text = .ok spec ∧
          (allowed.anyOf = false → .anyOf ∉ headsOfItems spec.items) ∧
          (allowed.conditional = false → ∀ test, .when test ∉ headsOfItems spec.items)) ∧
      ∀ error, parseWords allowed text = .error error →
        parseText text = .error error ∨
          ∃ word, error = ⟨text, .grammar .operatorNotAllowed (some word)⟩ ∧
            (operatorsRead allowed text).find? allowed.forbids = some word ∧
            (operatorsRead .default text).find? allowed.forbids = some word := by
  constructor
  · intro spec
    rw [parseText, parseWords_eq_ok_iff, parseWords_eq_ok_iff, Derives.iff_permitted,
      permittedItems_iff]
    exact and_right_comm
  · intro error h
    have hs : (operatorsRead allowed text).find? allowed.forbids =
        (operatorsRead .default text).find? allowed.forbids :=
      Reader.start.find?_operatorsRead (words text)
    rw [parseWords_eq_of_find?_operatorsRead] at h
    rw [hs]
    cases hf : (operatorsRead .default text).find? allowed.forbids with
    | none =>
      rw [hf] at h
      exact .inl h
    | some word =>
      rw [hf] at h
      exact .inr ⟨word, (Except.error.inj h).symm, rfl, rfl⟩

/-- The operator is blamed and not the parenthesis that has no group. The same word is no operator
after another one, where a parenthesis is missed with or without it. -/
theorem parseWords_withoutAnyOf :
    let allowed : AllowedOperators := ⟨false, true⟩
    parseWords allowed "|| ( a ) )" =
        .error ⟨"|| ( a ) )", .grammar .operatorNotAllowed (some "||")⟩ ∧
      parseText "|| ( a ) )" = .error ⟨"|| ( a ) )", .grammar .unbalanced (some ")")⟩ ∧
      (operatorsRead .default "|| ( a ) )").find? allowed.forbids = some "||" ∧
      parseText "x? || ( a )" = .error ⟨"x? || ( a )", .grammar .missingOpenParen (some "||")⟩ ∧
      parseWords allowed "x? ( a )" = .ok ⟨[.group (.when ⟨"x", false⟩) [.term "a"]], true⟩ := by
  intro allowed
  have hf : parseWords allowed "|| ( a ) )" =
      .error ⟨"|| ( a ) )", .grammar .operatorNotAllowed (some "||")⟩ := rfl
  have hd : parseText "|| ( a ) )" = .error ⟨"|| ( a ) )", .grammar .unbalanced (some ")")⟩ := rfl
  have hm : parseWords allowed "x? || ( a )" =
      .error ⟨"x? || ( a )", .grammar .missingOpenParen (some "||")⟩ := rfl
  obtain ⟨-, hfirst⟩ := parseWords_eq_ok_iff_permitted allowed "|| ( a ) )"
  obtain ⟨-, hmissed⟩ := parseWords_eq_ok_iff_permitted allowed "x? || ( a )"
  obtain ⟨hok, -⟩ := parseWords_eq_ok_iff_permitted allowed "x? ( a )"
  refine ⟨hf, hd, ?_, ?_, (hok _).mpr ⟨rfl, ?_, ?_⟩⟩
  · rcases hfirst _ hf with h | ⟨word, he, -, hw⟩
    · rw [hd] at h
      simp at h
    · obtain rfl : "||" = word := by simpa using he
      exact hw
  · rcases hmissed _ hm with h | ⟨word, he, -, -⟩
    · exact h
    · simp at he
  · simp [headsOfItems, Item.heads]
  · simp [allowed]

end DepSpec
