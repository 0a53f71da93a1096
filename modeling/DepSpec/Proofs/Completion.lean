import DepSpec.Proofs.Reading

/-! Texts that can be completed. Reading such a text is at fault at its end, if at all: where a
group is open or the parenthesis of an operator is to come. Any other fault is that of a word, and
remains whatever words come after it. -/

namespace DepSpec

/-- The text ended too early: in an open group, or before the parenthesis of an operator. -/
def ParseFault.Incomplete : ParseFault → Prop
  | .grammar .unbalanced token => token ≠ some ")"
  | .grammar .missingOpenParen token => token = none
  | _ => False

variable {allowed : AllowedOperators}

theorem Introduces.headD_ne_closing {introduction : List String} {head : Head}
    (h : Introduces allowed introduction head) : introduction.headD "(" ≠ ")" := by
  cases h with
  | allOf => decide
  | anyOf ha => decide
  | @when word test hc hw =>
    rintro rfl
    have ht := Token.ofString_eq_flag_iff.mpr hw
    rw [Token.ofString_eq_closing_iff.mpr rfl] at ht
    cases ht

theorem conditionalHead_not_incomplete {test? : Option FlagTest} {fault : GrammarFault}
    (h : allowed.conditionalHead test? = .error fault) (token : Option String) :
    ¬ (ParseFault.grammar fault token).Incomplete := by
  unfold AllowedOperators.conditionalHead at h
  split at h
  · split at h
    · cases h
    · obtain rfl := Except.error.inj h
      exact id
  · obtain rfl := Except.error.inj h
    exact id

namespace Reader

variable {α : Type} {readTerm : String → Except String α}

theorem closeGroup_not_incomplete {reader : Reader α} {fault : ParseFault}
    (h : reader.closeGroup = .error fault) : ¬ fault.Incomplete := by
  unfold closeGroup at h
  split at h
  · obtain rfl := Except.error.inj h
    exact fun hi => hi rfl
  · split at h
    · obtain rfl := Except.error.inj h
      exact id
    · cases h

theorem readWord_not_incomplete {reader : Reader α} {word : String} {fault : ParseFault}
    (h : reader.readWord allowed readTerm word = .error fault) : ¬ fault.Incomplete := by
  unfold readWord at h
  split at h
  · cases h
  · obtain rfl := Except.error.inj h
    exact Option.some_ne_none word
  · cases h
  · exact closeGroup_not_incomplete h
  · split at h
    · cases h
    · obtain rfl := Except.error.inj h
      exact id
  · split at h
    · cases h
    · rename_i hh
      obtain rfl := Except.error.inj h
      exact conditionalHead_not_incomplete hh (some word)
  · obtain rfl := Except.error.inj h
    exact id
  · split at h
    · cases h
    · obtain rfl := Except.error.inj h
      exact id

/-- The reader after some words, if none of them is at fault. -/
def readWords (allowed : AllowedOperators) (readTerm : String → Except String α)
    (reader : Reader α) (words : List String) : Except ParseFault (Reader α) :=
  words.foldlM (readWord allowed readTerm) reader

theorem readWords_cons (reader : Reader α) (word : String) (words : List String) :
    reader.readWords allowed readTerm (word :: words) =
      reader.readWord allowed readTerm word >>= fun next => next.readWords allowed readTerm words :=
  rfl

theorem readWords_append (reader : Reader α) (us vs : List String) :
    reader.readWords allowed readTerm (us ++ vs) =
      reader.readWords allowed readTerm us >>= fun next => next.readWords allowed readTerm vs :=
  List.foldlM_append

theorem bind_eq_ok_iff {ε β γ : Type} {read : Except ε β} {next : β → Except ε γ} {found : γ} :
    read >>= next = .ok found ↔ ∃ value, read = .ok value ∧ next value = .ok found := by
  cases read with
  | ok value =>
    change next value = .ok found ↔ _
    simp
  | error error =>
    change Except.error error = Except.ok found ↔ _
    simp

theorem readWords_cons_eq_ok_iff {reader next : Reader α} {word : String} {words : List String} :
    reader.readWords allowed readTerm (word :: words) = .ok next ↔
      ∃ found, Step allowed readTerm reader word found ∧
        found.readWords allowed readTerm words = .ok next := by
  rw [readWords_cons, bind_eq_ok_iff]
  simp only [readWord_eq_ok_iff]

theorem readWords_append_eq_ok_iff {reader next : Reader α} {us vs : List String} :
    reader.readWords allowed readTerm (us ++ vs) = .ok next ↔
      ∃ found, reader.readWords allowed readTerm us = .ok found ∧
        found.readWords allowed readTerm vs = .ok next := by
  rw [readWords_append, bind_eq_ok_iff]

theorem run_append {reader next : Reader α} {us : List String}
    (h : reader.readWords allowed readTerm us = .ok next) (vs : List String) :
    reader.run allowed readTerm (us ++ vs) = next.run allowed readTerm vs := by
  induction us generalizing reader with
  | nil =>
    obtain rfl := Except.ok.inj h
    rfl
  | cons word us ih =>
    obtain ⟨found, hs, hr⟩ := readWords_cons_eq_ok_iff.mp h
    rw [List.cons_append, hs.run_eq, ih hr]

theorem run_result (reader : Reader α) (words : List String) :
    (reader.run allowed readTerm words).result =
      reader.readWords allowed readTerm words >>= finish := by
  induction words generalizing reader with
  | nil =>
    change _ = reader.finish
    rw [run_nil]
    cases reader.finish <;> rfl
  | cons word words ih =>
    rw [run_cons, readWords_cons]
    cases reader.readWord allowed readTerm word with
    | ok next => exact ih next
    | error fault => rfl

theorem readWords_not_incomplete {reader : Reader α} {words : List String} {fault : ParseFault}
    (h : reader.readWords allowed readTerm words = .error fault) : ¬ fault.Incomplete := by
  induction words generalizing reader with
  | nil => cases h
  | cons word words ih =>
    rw [readWords_cons] at h
    cases hw : reader.readWord allowed readTerm word with
    | ok next =>
      rw [hw] at h
      exact ih h
    | error found =>
      rw [hw] at h
      obtain rfl := Except.error.inj h
      exact readWord_not_incomplete hw

theorem HasRead.readWords {reader next : Reader String} {words rest : List String}
    (h : HasRead allowed words reader) (hr : reader.readWords allowed .ok rest = .ok next) :
    HasRead allowed (words ++ rest) next := by
  induction rest generalizing words reader with
  | nil =>
    obtain rfl := Except.ok.inj hr
    rwa [List.append_nil]
  | cons word rest ih =>
    obtain ⟨found, hs, hr⟩ := readWords_cons_eq_ok_iff.mp hr
    simpa using ih (h.step hs) hr

/-- At the end there is no fault but that the text is incomplete. -/
theorem HasRead.incomplete_of_finish {reader : Reader String} {words : List String}
    {fault : ParseFault} (h : HasRead allowed words reader) (hf : reader.finish = .error fault) :
    fault.Incomplete := by
  unfold finish at hf
  split at hf
  · obtain rfl := Except.error.inj hf
    rfl
  · rename_i group groups ho hg
    obtain rfl := Except.error.inj hf
    rw [hasRead_of_operator_eq_none ho, hg] at h
    cases h with
    | inside hu hi hm => exact fun ht => hi.headD_ne_closing (Option.some.inj ht)
  · cases hf

/-- An item in the innermost group and a parenthesis for each open group complete a text. -/
theorem Unfinished.exists_derives {words first : List String} {items : List (Item String)}
    {groups : List (OpenGroup String)} {item : Item String}
    (h : Unfinished allowed words items groups) (hi : DerivesItem allowed first item) :
    ∃ whole, Derives allowed (words ++ first ++ List.replicate groups.length ")") whole := by
  induction h generalizing first item with
  | top hd => exact ⟨_, by simpa using hd.append (.single hi)⟩
  | @inside words introduction inner items members groups head hu hintro hm ih =>
    obtain ⟨whole, hw⟩ := ih (.group hintro (by simp) (hm.append (.single hi)))
    refine ⟨whole, ?_⟩
    simpa [List.replicate_succ] using hw

theorem HasRead.exists_completion {reader : Reader String} {words : List String}
    (h : HasRead allowed words reader) :
    ∃ rest, (∀ word ∈ rest, IsWord word) ∧ ∃ items, Derives allowed (words ++ rest) items := by
  have hx : DerivesItem allowed ["x"] (.term "x") := .term (by simp [IsTermWord])
  have hword : ∀ word ∈ ["(", "x", ")"], IsWord word := by simp [IsWord, isBlank]
  unfold HasRead at h
  split at h
  · obtain ⟨items, hd⟩ := h.exists_derives hx
    refine ⟨"x" :: List.replicate reader.groups.length ")", fun word hm => hword word ?_, items,
      by simpa using hd⟩
    grind
  · obtain ⟨before, rfl, hi, hu⟩ := h
    obtain ⟨items, hd⟩ := hu.exists_derives (.group hi (by simp) (.single hx))
    refine ⟨"(" :: "x" :: ")" :: List.replicate reader.groups.length ")",
      fun word hm => hword word ?_, items, by simpa using hd⟩
    grind

end Reader

theorem parseWords_eq (allowed : AllowedOperators) (text : String) :
    parseWords allowed text =
      (Reader.start.readWords allowed .ok (words text) >>= Reader.finish).mapError
        fun fault => ⟨text, fault⟩ := by
  rw [parseWords, parse_eq, Reader.run_result]

/-- A text can be continued unless one of its words is at fault. -/
theorem exists_parseWords_append_iff_readWords {text : String} :
    (∃ rest spec, parseWords allowed (text ++ " " ++ rest) = .ok spec) ↔
      ∃ reader, Reader.start.readWords allowed .ok (words text) = .ok reader := by
  constructor
  · rintro ⟨rest, spec, h⟩
    rw [parseWords_eq, words_append_space, Reader.readWords_append] at h
    cases hr : Reader.start.readWords allowed .ok (words text) with
    | ok reader => exact ⟨reader, rfl⟩
    | error fault =>
      rw [hr] at h
      cases h
  · rintro ⟨reader, hr⟩
    obtain ⟨rest, hw, items, hd⟩ := (Reader.hasRead_start.readWords hr).exists_completion
    refine ⟨spaced rest, ⟨items, !(testsOfItems items).isEmpty⟩, parseWords_eq_ok_iff.mpr ⟨?_, rfl⟩⟩
    rw [words_append_space, words_spaced hw]
    exact hd

theorem parseWords_ok_or_incomplete_iff_readWords {text : String} :
    ((∃ spec, parseWords allowed text = .ok spec) ∨
        ∃ error, parseWords allowed text = .error error ∧ error.fault.Incomplete) ↔
      ∃ reader, Reader.start.readWords allowed .ok (words text) = .ok reader := by
  rw [parseWords_eq]
  cases hr : Reader.start.readWords allowed .ok (words text) with
  | ok reader =>
    have hread : Reader.HasRead allowed (words text) reader := Reader.hasRead_start.readWords hr
    refine iff_of_true ?_ ⟨reader, rfl⟩
    change (∃ spec, reader.finish.mapError _ = _) ∨ ∃ error, reader.finish.mapError _ = _ ∧ _
    cases hf : reader.finish with
    | ok spec => exact .inl ⟨spec, rfl⟩
    | error fault => exact .inr ⟨⟨text, fault⟩, rfl, hread.incomplete_of_finish hf⟩
  | error fault =>
    refine iff_of_false ?_ (fun ⟨_, h⟩ => by cases h)
    rintro (⟨spec, h⟩ | ⟨error, h, hi⟩)
    · cases h
    · obtain rfl := Except.error.inj h
      exact Reader.readWords_not_incomplete hr hi

/-- A text has a continuation that is read without a fault if and only if it is read without a fault
itself or is incomplete. -/
theorem exists_parseWords_append_eq_ok_iff (allowed : AllowedOperators) (text : String) :
    (∃ rest spec, parseWords allowed (text ++ " " ++ rest) = .ok spec) ↔
      (∃ spec, parseWords allowed text = .ok spec) ∨
        ∃ error, parseWords allowed text = .error error ∧ error.fault.Incomplete := by
  rw [exists_parseWords_append_iff_readWords, parseWords_ok_or_incomplete_iff_readWords]

example : parseWords .default "|| ( x? (" =
    .error ⟨"|| ( x? (", .grammar .unbalanced (some "x?")⟩ := by
  cbv

end DepSpec
