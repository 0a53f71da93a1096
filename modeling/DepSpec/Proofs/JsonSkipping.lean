import DepSpec.JsonValue

/-! Skipping a value of any shape. The lists and objects that are open owe their closing marks; what
is ahead is the rest of each, innermost first, and skipping ends where this ends. -/

namespace DepSpec.Json

variable {owed : List Char} {rest lexemes : List Lexeme} {found : Lexeme}

/-- What comes after a value: the rest of the list or object that is open innermost, then of those
around it, and at last what stands behind the outermost. -/
inductive Closes (rest : List Lexeme) : List Char → List Lexeme → Prop
  | nothing : Closes rest [] rest
  | list (entries : List Value) {owed : List Char} {after : List Lexeme}
      (h : Closes rest owed after) :
      Closes rest (']' :: owed) (laterEntries entries ++ .mark ']' :: after)
  | object (members : List (Option String × Value)) {owed : List Char} {after : List Lexeme}
      (h : Closes rest owed after) :
      Closes rest ('\x7d' :: owed) (laterMembers members ++ .mark '\x7d' :: after)

/-- What comes at a place inside the lists and objects that are open. -/
inductive Ahead (rest : List Lexeme) : List Char → Place → List Lexeme → Prop
  | next {owed : List Char} {after : List Lexeme} (h : Closes rest owed after) :
      Ahead rest owed .next after
  | value (value : Value) {owed : List Char} {after : List Lexeme} (h : Closes rest owed after) :
      Ahead rest owed .value (value.lexemes ++ after)
  | colon {owed : List Char} {lexemes : List Lexeme} (h : Ahead rest owed .value lexemes) :
      Ahead rest owed .colon (.mark ':' :: lexemes)
  | key (key : Option String) {owed : List Char} {lexemes : List Lexeme}
      (h : Ahead rest owed .colon lexemes) : Ahead rest owed .key (.text key :: lexemes)
  | close (c : Char) {owed : List Char} {after : List Lexeme} (h : Closes rest owed after) :
      Ahead rest (c :: owed) .first (.mark c :: after)
  | first {owed : List Char} {lexemes : List Lexeme}
      (h : Ahead rest owed (placeAfterComma owed) lexemes) : Ahead rest owed .first lexemes

/-- A place that skipping comes to, with the closing marks that are owed there. -/
structure Reached (owed : List Char) (place : Place) : Prop where
  closing : ∀ c ∈ owed, c = ']' ∨ c = '\x7d'
  inside : place = .first ∨ place = .next → owed ≠ []
  member : place = .key ∨ place = .colon → owed.head? = some '\x7d'

theorem placeAfterComma_list (owed : List Char) : placeAfterComma (']' :: owed) = .value := rfl

theorem placeAfterComma_object (owed : List Char) : placeAfterComma ('\x7d' :: owed) = .key := rfl

theorem ahead_next_iff : Ahead rest owed .next lexemes ↔ Closes rest owed lexemes := by
  constructor
  · intro h
    cases h with
    | next h => exact h
  · exact Ahead.next

theorem ahead_colon_iff :
    Ahead rest owed .colon (found :: lexemes) ↔
      found = .mark ':' ∧ Ahead rest owed .value lexemes := by
  constructor
  · intro h
    cases h with
    | colon h => exact ⟨rfl, h⟩
  · rintro ⟨rfl, h⟩
    exact .colon h

theorem ahead_key_iff :
    Ahead rest owed .key (found :: lexemes) ↔
      (∃ key, found = .text key) ∧ Ahead rest owed .colon lexemes := by
  constructor
  · intro h
    cases h with
    | key key h => exact ⟨⟨key, rfl⟩, h⟩
  · rintro ⟨⟨key, rfl⟩, h⟩
    exact .key key h

theorem ahead_first_iff {c : Char} :
    Ahead rest (c :: owed) .first lexemes ↔
      (∃ after, lexemes = .mark c :: after ∧ Closes rest owed after) ∨
        Ahead rest (c :: owed) (placeAfterComma (c :: owed)) lexemes := by
  constructor
  · intro h
    cases h with
    | close c h => exact .inl ⟨_, rfl, h⟩
    | first h => exact .inr h
  · rintro (⟨after, rfl, h⟩ | h)
    · exact .close c h
    · exact .first h

/-- In a list an entry comes, and the rest of the list. -/
theorem ahead_entry_iff :
    Ahead rest (']' :: owed) (placeAfterComma (']' :: owed)) lexemes ↔
      ∃ entry entries after, Closes rest owed after ∧
        lexemes = Value.lexemes entry ++ (laterEntries entries ++ .mark ']' :: after) := by
  rw [placeAfterComma_list]
  constructor
  · intro h
    cases h with
    | value entry h =>
      cases h with
      | list entries h => exact ⟨entry, entries, _, h, rfl⟩
  · rintro ⟨entry, entries, after, h, rfl⟩
    exact .value entry (.list entries h)

/-- In an object a member comes, and the rest of the object. -/
theorem ahead_member_iff :
    Ahead rest ('\x7d' :: owed) (placeAfterComma ('\x7d' :: owed)) lexemes ↔
      ∃ key value members after, Closes rest owed after ∧
        lexemes = .text key :: .mark ':' ::
          (Value.lexemes value ++ (laterMembers members ++ .mark '\x7d' :: after)) := by
  rw [placeAfterComma_object]
  constructor
  · intro h
    cases h with
    | key key h =>
      cases h with
      | colon h =>
        cases h with
        | value value h =>
          cases h with
          | object members h => exact ⟨key, value, members, _, h, rfl⟩
  · rintro ⟨key, value, members, after, h, rfl⟩
    exact .key key (.colon (.value value (.object members h)))

/-- A comma leads on to another entry or member. -/
theorem closes_cons_iff {c : Char} (hc : c = ']' ∨ c = '\x7d') :
    Closes rest (c :: owed) (found :: lexemes) ↔
      found = .mark c ∧ Closes rest owed lexemes ∨
        found = .mark ',' ∧ Ahead rest (c :: owed) (placeAfterComma (c :: owed)) lexemes := by
  constructor
  · intro h
    generalize hl : found :: lexemes = all at h
    cases h with
    | list entries h =>
      cases entries with
      | nil =>
        obtain ⟨rfl, rfl⟩ := List.cons.inj hl
        exact .inl ⟨rfl, h⟩
      | cons entry entries =>
        rw [laterEntries, List.cons_append, List.append_assoc] at hl
        obtain ⟨rfl, rfl⟩ := List.cons.inj hl
        exact .inr ⟨rfl, ahead_entry_iff.mpr ⟨entry, entries, _, h, rfl⟩⟩
    | object members h =>
      cases members with
      | nil =>
        obtain ⟨rfl, rfl⟩ := List.cons.inj hl
        exact .inl ⟨rfl, h⟩
      | cons member members =>
        simp only [laterMembers, List.cons_append, List.append_assoc] at hl
        obtain ⟨rfl, rfl⟩ := List.cons.inj hl
        exact .inr ⟨rfl, ahead_member_iff.mpr ⟨member.1, member.2, members, _, h, rfl⟩⟩
  · rintro (⟨rfl, h⟩ | ⟨rfl, h⟩)
    · rcases hc with rfl | rfl
      · exact .list [] h
      · exact .object [] h
    · rcases hc with rfl | rfl
      · obtain ⟨entry, entries, after, ha, rfl⟩ := ahead_entry_iff.mp h
        simpa [laterEntries] using Closes.list (entry :: entries) ha
      · obtain ⟨key, value, members, after, ha, rfl⟩ := ahead_member_iff.mp h
        simpa [laterMembers] using Closes.object ((key, value) :: members) ha

theorem ahead_value_iff :
    Ahead rest owed .value (found :: lexemes) ↔
      match found with
      | .word _ | .text _ | .number _ => Closes rest owed lexemes
      | .mark c =>
        c = '[' ∧ Ahead rest (']' :: owed) .first lexemes ∨
          c = '\x7b' ∧ Ahead rest ('\x7d' :: owed) .first lexemes
      | _ => False := by
  constructor
  · intro h
    generalize hl : found :: lexemes = all at h
    cases h with
    | value value h =>
      cases value with
      | word | text | number =>
        obtain ⟨rfl, rfl⟩ := List.cons.inj hl
        exact h
      | list entries =>
        cases entries with
        | nil =>
          obtain ⟨rfl, rfl⟩ := List.cons.inj hl
          exact .inl ⟨rfl, .close ']' h⟩
        | cons entry entries =>
          rw [lexemes_list_cons] at hl
          obtain ⟨rfl, rfl⟩ := List.cons.inj hl
          exact .inl ⟨rfl, .first (ahead_entry_iff.mpr ⟨entry, entries, _, h, rfl⟩)⟩
      | object members =>
        cases members with
        | nil =>
          obtain ⟨rfl, rfl⟩ := List.cons.inj hl
          exact .inr ⟨rfl, .close '\x7d' h⟩
        | cons member members =>
          obtain ⟨key, value⟩ := member
          rw [lexemes_object_cons] at hl
          obtain ⟨rfl, rfl⟩ := List.cons.inj hl
          exact .inr ⟨rfl, .first (ahead_member_iff.mpr ⟨key, value, members, _, h, rfl⟩)⟩
  · intro h
    cases found with
    | word word => exact .value (.word word) h
    | text value => exact .value (.text value) h
    | number finite => exact .value (.number finite) h
    | brokenWord | brokenText | brokenNumber => cases h
    | mark c =>
      rcases h with ⟨rfl, h⟩ | ⟨rfl, h⟩
      · rcases ahead_first_iff.mp h with ⟨after, rfl, hc⟩ | ha
        · exact .value (.list []) hc
        · obtain ⟨entry, entries, after, hc, rfl⟩ := ahead_entry_iff.mp ha
          rw [← lexemes_list_cons]
          exact .value _ hc
      · rcases ahead_first_iff.mp h with ⟨after, rfl, hc⟩ | ha
        · exact .value (.object []) hc
        · obtain ⟨key, value, members, after, hc, rfl⟩ := ahead_member_iff.mp ha
          rw [← lexemes_object_cons]
          exact .value _ hc

/-- Skipping goes on after a value as long as a closing mark is owed. -/
def skipAfterValue (owed : List Char) (lexemes : List Lexeme) :
    Except Fault (Unit × List Lexeme) :=
  if owed.isEmpty then .ok ((), lexemes) else skipFrom owed .next lexemes

theorem skipFrom_value (owed : List Char) (found : Lexeme) (lexemes : List Lexeme) :
    skipFrom owed .value (found :: lexemes) =
      match found with
      | .word _ | .text _ | .number _ => skipAfterValue owed lexemes
      | .mark c =>
        if c = '[' then skipFrom (']' :: owed) .first lexemes
        else if c = '\x7b' then skipFrom ('\x7d' :: owed) .first lexemes
        else .error .malformed
      | .brokenWord fault => .error fault
      | .brokenText _ skipped => .error skipped
      | .brokenNumber _ => .error .malformed := by
  cases found <;> rfl

theorem skipFrom_key (owed : List Char) (found : Lexeme) (lexemes : List Lexeme) :
    skipFrom owed .key (found :: lexemes) =
      match found with
      | .text _ => skipFrom owed .colon lexemes
      | .brokenText _ skipped => .error skipped
      | _ => .error .malformed := by
  cases found <;> rfl

theorem skipFrom_colon (owed : List Char) (found : Lexeme) (lexemes : List Lexeme) :
    skipFrom owed .colon (found :: lexemes) =
      if found = .mark ':' then skipFrom owed .value lexemes else .error .malformed := by
  rw [skipFrom]

theorem skipFrom_next (c : Char) (owed : List Char) (found : Lexeme) (lexemes : List Lexeme) :
    skipFrom (c :: owed) .next (found :: lexemes) =
      if found = .mark c then skipAfterValue owed lexemes
      else if found = .mark ',' then
        skipFrom (c :: owed) (placeAfterComma (c :: owed)) lexemes
      else .error .malformed := by
  rw [skipFrom]
  simp [skipAfterValue]

theorem skipFrom_first (c : Char) (owed : List Char) (found : Lexeme) (lexemes : List Lexeme) :
    skipFrom (c :: owed) .first (found :: lexemes) =
      if found = .mark c then skipAfterValue owed lexemes
      else skipFrom (c :: owed) (placeAfterComma (c :: owed)) (found :: lexemes) := by
  rw [skipFrom.eq_def]
  by_cases hf : found = .mark c
  · simp [hf, skipAfterValue]
  · by_cases hc : c = '\x7d'
    · subst hc
      rw [placeAfterComma_object, skipFrom_key]
      cases found <;> simp_all
    · have hp : placeAfterComma (c :: owed) = .value := by simp [placeAfterComma, hc]
      rw [hp, skipFrom_value]
      cases found <;> simp_all [skipAfterValue]

theorem Ahead.ne_nil {place : Place} (h : Ahead rest owed place lexemes)
    (hp : place = .next → owed ≠ []) : lexemes ≠ [] := by
  induction h with
  | next h =>
    cases h with
    | nothing => exact absurd rfl (hp rfl)
    | list entries h => simp
    | object members h => simp
  | value value h =>
    obtain ⟨first, others, hv, -⟩ := value.exists_lexemes_eq_cons
    simp [hv]
  | colon h | key key h | close c h => exact List.cons_ne_nil _ _
  | first h ih =>
    refine ih fun hn => ?_
    unfold placeAfterComma at hn
    split at hn <;> cases hn

theorem not_ahead_closing {c : Char} (hc : c = ']' ∨ c = '\x7d') :
    ¬ Ahead rest (c :: owed) (placeAfterComma (c :: owed)) (.mark c :: lexemes) := by
  rcases hc with rfl | rfl
  · rw [placeAfterComma_list, ahead_value_iff]
    simp
  · rw [placeAfterComma_object, ahead_key_iff]
    simp

/-- At every place that is reached, skipping ends where what is ahead ends. -/
def SkipsWhatIsAhead (rest lexemes : List Lexeme) : Prop :=
  ∀ {owed : List Char} {place : Place}, Reached owed place →
    (skipFrom owed place lexemes = .ok ((), rest) ↔ Ahead rest owed place lexemes)

namespace SkipsWhatIsAhead

variable (h : SkipsWhatIsAhead rest lexemes)

include h

theorem afterValue (hc : ∀ c ∈ owed, c = ']' ∨ c = '\x7d') :
    skipAfterValue owed lexemes = .ok ((), rest) ↔ Closes rest owed lexemes := by
  cases owed with
  | nil =>
    change Except.ok ((), lexemes) = .ok ((), rest) ↔ _
    constructor
    · intro hr
      obtain rfl := congrArg Prod.snd (Except.ok.inj hr)
      exact .nothing
    · intro hc
      cases hc with
      | nothing => rfl
  | cons c owed =>
    have hr : Reached (c :: owed) .next := ⟨hc, by simp, by simp⟩
    rw [skipAfterValue, if_neg (by simp), h hr, ahead_next_iff]

theorem value (hc : ∀ c ∈ owed, c = ']' ∨ c = '\x7d') :
    skipFrom owed .value (found :: lexemes) = .ok ((), rest) ↔
      Ahead rest owed .value (found :: lexemes) := by
  rw [skipFrom_value, ahead_value_iff]
  cases found with
  | word | text | number => exact h.afterValue hc
  | brokenWord | brokenText | brokenNumber => simp
  | mark c =>
    have hl : Reached (']' :: owed) .first := ⟨by simpa using hc, by simp, by simp⟩
    have ho : Reached ('\x7d' :: owed) .first := ⟨by simpa using hc, by simp, by simp⟩
    by_cases hb : c = '['
    · simp [hb, h hl]
    · by_cases hb' : c = '\x7b'
      · simp [hb', h ho]
      · simp [hb, hb']

theorem key (hr : Reached owed .colon) :
    skipFrom owed .key (found :: lexemes) = .ok ((), rest) ↔
      Ahead rest owed .key (found :: lexemes) := by
  rw [skipFrom_key, ahead_key_iff]
  cases found <;> simp [h hr]

theorem item {c : Char} (hc : ∀ d ∈ c :: owed, d = ']' ∨ d = '\x7d') :
    skipFrom (c :: owed) (placeAfterComma (c :: owed)) (found :: lexemes) = .ok ((), rest) ↔
      Ahead rest (c :: owed) (placeAfterComma (c :: owed)) (found :: lexemes) := by
  rcases hc c (by simp) with rfl | rfl
  · exact h.value hc
  · exact h.key ⟨hc, by simp, by simp⟩

theorem first {c : Char} (hc : ∀ d ∈ c :: owed, d = ']' ∨ d = '\x7d') :
    skipFrom (c :: owed) .first (found :: lexemes) = .ok ((), rest) ↔
      Ahead rest (c :: owed) .first (found :: lexemes) := by
  rw [skipFrom_first, ahead_first_iff]
  by_cases hf : found = .mark c
  · subst hf
    have hn : ¬ Ahead rest (c :: owed) (placeAfterComma (c :: owed)) (.mark c :: lexemes) :=
      not_ahead_closing (hc c (by simp))
    have ho : ∀ d ∈ owed, d = ']' ∨ d = '\x7d' := fun d hd => hc d (by simp [hd])
    simp [hn, h.afterValue ho]
  · simp [hf, h.item hc]

theorem next {c : Char} (hc : ∀ d ∈ c :: owed, d = ']' ∨ d = '\x7d') :
    skipFrom (c :: owed) .next (found :: lexemes) = .ok ((), rest) ↔
      Ahead rest (c :: owed) .next (found :: lexemes) := by
  have hfirst := hc c (by simp)
  have ho : ∀ d ∈ owed, d = ']' ∨ d = '\x7d' := fun d hd => hc d (by simp [hd])
  have hne : c ≠ ',' := by rcases hfirst with rfl | rfl <;> simp
  rw [skipFrom_next, ahead_next_iff, closes_cons_iff hfirst]
  by_cases hf : found = .mark c
  · simp [hf, hne, h.afterValue ho]
  · by_cases hm : found = .mark ','
    · have hr : Reached (c :: owed) (placeAfterComma (c :: owed)) := by
        refine ⟨hc, by simp, ?_⟩
        rcases hfirst with rfl | rfl <;> simp [placeAfterComma_list]
      simp [hm, hne.symm, h hr]
    · simp [hf, hm]

end SkipsWhatIsAhead

theorem skipsWhatIsAhead (rest lexemes : List Lexeme) : SkipsWhatIsAhead rest lexemes := by
  induction lexemes with
  | nil =>
    intro owed place hr
    have hn : ¬ Ahead rest owed place [] := fun ha =>
      ha.ne_nil (fun hp => hr.inside (.inr hp)) rfl
    simp [hn, skipFrom]
  | cons found lexemes ih =>
    intro owed place hr
    cases place with
    | value => exact ih.value hr.closing
    | key => exact ih.key ⟨hr.closing, by simp, fun _ => hr.member (.inl rfl)⟩
    | colon =>
      rw [skipFrom_colon, ahead_colon_iff]
      have hv : Reached owed .value := ⟨hr.closing, by simp, by simp⟩
      by_cases hf : found = .mark ':'
      · simp [hf, ih hv]
      · simp [hf]
    | first =>
      obtain ⟨c, others, rfl⟩ := List.exists_cons_of_ne_nil (hr.inside (.inl rfl))
      exact ih.first hr.closing
    | next =>
      obtain ⟨c, others, rfl⟩ := List.exists_cons_of_ne_nil (hr.inside (.inr rfl))
      exact ih.next hr.closing

theorem skipValue_eq_ok_iff :
    skipValue lexemes = .ok ((), rest) ↔ ∃ value : Value, lexemes = value.lexemes ++ rest := by
  have hr : Reached [] .value := ⟨by simp, by simp, by simp⟩
  rw [skipValue, skipsWhatIsAhead rest lexemes hr]
  constructor
  · intro h
    cases h with
    | value value h =>
      cases h with
      | nothing => exact ⟨value, rfl⟩
  · rintro ⟨value, rfl⟩
    exact .value value .nothing

end DepSpec.Json
