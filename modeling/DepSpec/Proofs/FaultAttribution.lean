import DepSpec.Proofs.Completion

/-! Which fault a text has, and which of its words is to blame. A word is refused for what stands
before it; at the end of a text only an operator or the innermost open group can be to blame. -/

namespace DepSpec

variable {allowed : AllowedOperators}

/-- An operator that the options forbid. -/
def IsForbidden (allowed : AllowedOperators) (word : String) : Prop :=
  (word = "||" ∧ allowed.anyOf = false) ∨
    (word.toList.getLast? = some '?' ∧ allowed.conditional = false)

/-- A question mark after what is no flag name, where flags are allowed; or a parenthesis or bar in
what is no operator and no parenthesis itself. -/
def IsMalformed (allowed : AllowedOperators) (word : String) : Prop :=
  (word.toList.getLast? = some '?' ∧ allowed.conditional = true ∧ ∀ test, ¬ IsFlagWord word test) ∨
    (word ∉ ["(", ")", "||"] ∧ word.toList.getLast? ≠ some '?' ∧
      ∃ c ∈ word.toList, c ∈ ['(', ')', '|'])

namespace Token

theorem exists_ofString_eq_flag_iff {word : String} :
    (∃ test?, ofString word = .flag test?) ↔ word.toList.getLast? = some '?' := by
  unfold ofString
  split
  · subst_vars
    simp
  · split
    · subst_vars
      simp
    · split
      · subst_vars
        simp
      · split
        · rename_i name hf
          simp [flagPart?_eq_some_iff.mp hf]
        · rename_i hf
          have hq := flagPart?_eq_none_iff.mp hf
          split <;> simp [hq]

theorem ofString_eq_flag_none_iff {word : String} :
    ofString word = .flag none ↔
      word.toList.getLast? = some '?' ∧ ∀ test, ¬ IsFlagWord word test := by
  rw [← exists_ofString_eq_flag_iff]
  constructor
  · intro h
    refine ⟨⟨none, h⟩, fun test ht => ?_⟩
    rw [← ofString_eq_flag_iff, h] at ht
    cases ht
  · rintro ⟨⟨_ | test, h⟩, hn⟩
    · exact h
    · exact absurd (ofString_eq_flag_iff.mp h) (hn test)

theorem ofString_eq_stray_iff {word : String} :
    ofString word = .stray ↔
      word ∉ ["(", ")", "||"] ∧ word.toList.getLast? ≠ some '?' ∧
        ∃ c ∈ word.toList, c ∈ ['(', ')', '|'] := by
  unfold ofString
  split
  · simp [*]
  · split
    · simp [*]
    · split
      · simp [*]
      · split
        · rename_i name hf
          simp [flagPart?_eq_some_iff.mp hf]
        · rename_i ho hc hb _ hf
          have hq := flagPart?_eq_none_iff.mp hf
          have hr : word.toList.any isReserved = true ↔
              ∃ c ∈ word.toList, c ∈ ['(', ')', '|'] := by simp [isReserved, or_assoc]
          rw [← hr]
          split <;> simp [*]

end Token

namespace Reader

variable {α : Type} {readTerm : String → Except String α}

inductive Refuses (allowed : AllowedOperators) (readTerm : String → Except String α)
    (reader : Reader α) : String → ParseFault → Prop
  | unopened {word : String} {awaited : Head × String} (ho : reader.operator = some awaited)
      (hw : word ≠ "(") :
      Refuses allowed readTerm reader word (.grammar .missingOpenParen (some word))
  | noGroup (ho : reader.operator = none) (hg : reader.groups = []) :
      Refuses allowed readTerm reader ")" (.grammar .unbalanced (some ")"))
  | noMember {group : OpenGroup α} {groups : List (OpenGroup α)} (ho : reader.operator = none)
      (hg : reader.groups = group :: groups) (hm : group.members = []) :
      Refuses allowed readTerm reader ")" (.grammar .emptyGroup (some group.openedBy))
  | forbidden {word : String} (ho : reader.operator = none) (hw : IsForbidden allowed word) :
      Refuses allowed readTerm reader word (.grammar .operatorNotAllowed (some word))
  | malformed {word : String} (ho : reader.operator = none) (hw : IsMalformed allowed word) :
      Refuses allowed readTerm reader word (.grammar .malformedToken (some word))
  | rejected {word reason : String} (ho : reader.operator = none) (ht : IsTermWord word)
      (hr : readTerm word = .error reason) :
      Refuses allowed readTerm reader word (.rejected word reason)

theorem conditionalHead_eq_error_iff {test? : Option FlagTest} {fault : GrammarFault} :
    allowed.conditionalHead test? = .error fault ↔
      (allowed.conditional = false ∧ fault = .operatorNotAllowed) ∨
        (allowed.conditional = true ∧ test? = none ∧ fault = .malformedToken) := by
  unfold AllowedOperators.conditionalHead
  by_cases hc : allowed.conditional = true
  · cases test? <;> simp [hc, eq_comm]
  · simp [hc, eq_comm]

theorem closeGroup_eq_error_iff {reader : Reader α} {fault : ParseFault} :
    reader.closeGroup = .error fault ↔
      (reader.groups = [] ∧ fault = .grammar .unbalanced (some ")")) ∨
        ∃ group groups, reader.groups = group :: groups ∧ group.members = [] ∧
          fault = .grammar .emptyGroup (some group.openedBy) := by
  unfold closeGroup
  cases hg : reader.groups with
  | nil => simp [eq_comm]
  | cons group groups =>
    by_cases hm : group.members = []
    · simp [hm, eq_comm]
    · simp [hm]

theorem readWord_eq_error_iff {reader : Reader α} {word : String} {fault : ParseFault} :
    reader.readWord allowed readTerm word = .error fault ↔
      Refuses allowed readTerm reader word fault := by
  constructor
  · intro h
    unfold readWord at h
    split at h
    · cases h
    · rename_i awaited ho hn
      obtain rfl := Except.error.inj h
      refine .unopened ho fun hw => ?_
      exact hn awaited.1 awaited.2 (Token.ofString_eq_opening_iff.mpr hw) rfl
    · cases h
    · rename_i ho hw
      obtain rfl := Token.ofString_eq_closing_iff.mp hw
      rcases closeGroup_eq_error_iff.mp h with ⟨hg, rfl⟩ | ⟨group, groups, hg, hm, rfl⟩
      · exact .noGroup ho hg
      · exact .noMember ho hg hm
    · rename_i ho hw
      split at h
      · cases h
      · rename_i ha
        obtain rfl := Except.error.inj h
        exact .forbidden ho (.inl ⟨Token.ofString_eq_anyOf_iff.mp hw, by simpa using ha⟩)
    · rename_i test? ho hw
      split at h
      · cases h
      · rename_i fault hf
        obtain rfl := Except.error.inj h
        have hq := Token.exists_ofString_eq_flag_iff.mp ⟨test?, hw⟩
        rcases conditionalHead_eq_error_iff.mp hf with ⟨hc, rfl⟩ | ⟨hc, rfl, rfl⟩
        · exact .forbidden ho (.inr ⟨hq, hc⟩)
        · exact .malformed ho (.inl ⟨hq, hc, (Token.ofString_eq_flag_none_iff.mp hw).2⟩)
    · rename_i ho hw
      obtain rfl := Except.error.inj h
      exact .malformed ho (.inr (Token.ofString_eq_stray_iff.mp hw))
    · rename_i ho hw
      split at h
      · cases h
      · rename_i reason hr
        obtain rfl := Except.error.inj h
        exact .rejected ho (Token.ofString_eq_term_iff.mp hw) hr
  · intro h
    cases h with
    | unopened ho hw =>
      have hn := mt Token.ofString_eq_opening_iff.mp hw
      unfold readWord
      rw [ho]
      cases ht : Token.ofString word with
      | opening => exact absurd ht hn
      | _ => rfl
    | noGroup ho hg =>
      have hc := closeGroup_eq_error_iff.mpr (.inl ⟨hg, rfl⟩)
      simp [readWord, ho, Token.ofString_eq_closing_iff.mpr, hc]
    | noMember ho hg hm =>
      have hc := closeGroup_eq_error_iff.mpr (.inr ⟨_, _, hg, hm, rfl⟩)
      simp [readWord, ho, Token.ofString_eq_closing_iff.mpr, hc]
    | forbidden ho hw =>
      rcases hw with ⟨rfl, ha⟩ | ⟨hq, hc⟩
      · simp [readWord, ho, Token.ofString_eq_anyOf_iff.mpr, ha]
      · obtain ⟨test?, ht⟩ := Token.exists_ofString_eq_flag_iff.mpr hq
        have hf : allowed.conditionalHead test? = .error .operatorNotAllowed :=
          conditionalHead_eq_error_iff.mpr (.inl ⟨hc, rfl⟩)
        simp [readWord, ho, ht, hf]
    | malformed ho hw =>
      rcases hw with ⟨hq, hc, hn⟩ | hs
      · have hf := conditionalHead_eq_error_iff.mpr (.inr ⟨hc, rfl, rfl⟩)
        simp [readWord, ho, Token.ofString_eq_flag_none_iff.mpr ⟨hq, hn⟩, hf]
      · simp [readWord, ho, Token.ofString_eq_stray_iff.mpr hs]
    | rejected ho ht hr => simp [readWord, ho, Token.ofString_eq_term_iff.mpr ht, hr]

theorem exists_refuses_of_readWords {reader : Reader α} {words : List String} {fault : ParseFault}
    (h : reader.readWords allowed readTerm words = .error fault) :
    ∃ before word after next, words = before ++ word :: after ∧
      reader.readWords allowed readTerm before = .ok next ∧
      Refuses allowed readTerm next word fault := by
  induction words generalizing reader with
  | nil => cases h
  | cons word words ih =>
    rw [readWords_cons] at h
    cases hw : reader.readWord allowed readTerm word with
    | error found =>
      rw [hw] at h
      obtain rfl := Except.error.inj h
      exact ⟨[], word, words, reader, rfl, rfl, readWord_eq_error_iff.mp hw⟩
    | ok next =>
      rw [hw] at h
      obtain ⟨before, found, after, last, rfl, hb, hr⟩ := ih h
      refine ⟨word :: before, found, after, last, rfl, ?_, hr⟩
      rw [readWords_cons, hw]
      exact hb

theorem Refuses.run_eq {reader : Reader α} {word : String} {fault : ParseFault}
    (h : Refuses allowed readTerm reader word fault) (rest : List String) :
    reader.run allowed readTerm (word :: rest) = reader.outcome (.error fault) := by
  rw [run_cons, readWord_eq_error_iff.mpr h]

theorem Refuses.run_result {reader : Reader α} {word : String} {fault : ParseFault}
    (h : Refuses allowed readTerm reader word fault) (rest : List String) :
    (reader.run allowed readTerm (word :: rest)).result = .error fault := by
  rw [h.run_eq]
  rfl

end Reader

theorem parseWords_eq_error_iff_run {text : String} {error : Unparseable} :
    parseWords allowed text = .error error ↔
      error.text = text ∧
        (Reader.start.run allowed .ok (words text)).result = .error error.fault :=
  parse_result_eq_error_iff

/-- The words are those of a text that is read. -/
def IsRead (allowed : AllowedOperators) (ws : List String) : Prop :=
  ∃ spec, parseWords allowed (spaced ws) = .ok spec

/-- A term may come next: with it, and some text after it, the words are read. -/
def IsBoundary (allowed : AllowedOperators) (ws : List String) : Prop :=
  ∃ rest spec, parseWords allowed (spaced (ws ++ ["x"]) ++ " " ++ rest) = .ok spec

theorem isTermWord_x : IsTermWord "x" := by
  simp [IsTermWord]

theorem isWord_append_x {ws : List String} (hw : ∀ word ∈ ws, IsWord word) :
    ∀ word ∈ ws ++ ["x"], IsWord word := by
  have hx : IsWord "x" := by simp [IsWord, isBlank]
  simpa [or_imp, forall_and] using ⟨hw, hx⟩

theorem isRead_iff {ws : List String} (hw : ∀ word ∈ ws, IsWord word) :
    IsRead allowed ws ↔ ∃ items, Derives allowed ws items := by
  unfold IsRead
  constructor
  · rintro ⟨spec, h⟩
    have hd := (parseWords_eq_ok_iff.mp h).1
    rw [words_spaced hw] at hd
    exact ⟨spec.items, hd⟩
  · rintro ⟨items, hd⟩
    refine ⟨⟨items, !(testsOfItems items).isEmpty⟩, parseWords_eq_ok_iff.mpr ⟨?_, rfl⟩⟩
    rwa [words_spaced hw]

theorem IsBoundary.exists_reader {ws : List String} (hw : ∀ word ∈ ws, IsWord word)
    (h : IsBoundary allowed ws) :
    ∃ reader, Reader.start.readWords allowed .ok ws = .ok reader ∧ reader.operator = none := by
  -- the term after the words is read only where no parenthesis is awaited
  obtain ⟨last, hl⟩ := exists_parseWords_append_iff_readWords.mp h
  rw [words_spaced (isWord_append_x hw)] at hl
  obtain ⟨reader, hr, hx⟩ := Reader.readWords_append_eq_ok_iff.mp hl
  obtain ⟨next, hs, -⟩ := Reader.readWords_cons_eq_ok_iff.mp hx
  exact ⟨reader, hr, hs.operator_eq_none isTermWord_x⟩

theorem IsBoundary.exists_run {before rest : List String} (h : IsBoundary allowed before)
    (hw : ∀ word ∈ before ++ rest, IsWord word) :
    ∃ reader : Reader String, reader.operator = none ∧
      (Reader.start.run allowed .ok (before ++ rest)).result =
        (reader.run allowed .ok rest).result := by
  obtain ⟨reader, hr, ho⟩ := h.exists_reader fun word hm => hw word (List.mem_append_left _ hm)
  exact ⟨reader, ho, congrArg Outcome.result (Reader.run_append hr rest)⟩

theorem Reader.Unfinished.isBoundary {ws : List String} {items : List (Item String)}
    {groups : List (OpenGroup String)} (h : Unfinished allowed ws items groups)
    (hw : ∀ word ∈ ws, IsWord word) : IsBoundary allowed ws := by
  obtain ⟨whole, hd⟩ := h.exists_derives (.term isTermWord_x)
  have hc : ∀ word ∈ List.replicate groups.length ")", IsWord word := by
    simp [IsWord, isBlank]
  refine ⟨spaced (List.replicate groups.length ")"), ⟨whole, !(testsOfItems whole).isEmpty⟩,
    parseWords_eq_ok_iff.mpr ⟨?_, rfl⟩⟩
  rwa [words_append_space, words_spaced (isWord_append_x hw), words_spaced hc]

/-- Which fault the words of a text have, and which word is to blame. -/
inductive Blames (allowed : AllowedOperators) :
    List String → GrammarFault → Option String → Prop
  | closing {before after : List String} (hb : IsRead allowed before) :
      Blames allowed (before ++ ")" :: after) .unbalanced (some ")")
  | opening {before introduction inner : List String} {head : Head}
      (hb : IsBoundary allowed before) (hi : Introduces allowed introduction head)
      (hr : IsRead allowed inner) :
      Blames allowed (before ++ (introduction ++ "(" :: inner)) .unbalanced
        (some (introduction.headD "("))
  | empty {before introduction after : List String} {head : Head}
      (hb : IsBoundary allowed before) (hi : Introduces allowed introduction head) :
      Blames allowed (before ++ (introduction ++ "(" :: ")" :: after)) .emptyGroup
        (some (introduction.headD "("))
  | operatorLast {before : List String} {operator : String} {head : Head}
      (hb : IsBoundary allowed before) (hi : Introduces allowed [operator] head) :
      Blames allowed (before ++ [operator]) .missingOpenParen none
  | afterOperator {before after : List String} {operator word : String} {head : Head}
      (hb : IsBoundary allowed before) (hi : Introduces allowed [operator] head)
      (hw : word ≠ "(") :
      Blames allowed (before ++ operator :: word :: after) .missingOpenParen (some word)
  | forbidden {before after : List String} {word : String} (hb : IsBoundary allowed before)
      (hw : IsForbidden allowed word) :
      Blames allowed (before ++ word :: after) .operatorNotAllowed (some word)
  | malformed {before after : List String} {word : String} (hb : IsBoundary allowed before)
      (hw : IsMalformed allowed word) :
      Blames allowed (before ++ word :: after) .malformedToken (some word)

namespace Reader

theorem Refuses.blames {reader : Reader String} {before after : List String} {word : String}
    {fault : ParseFault} (h : Refuses allowed .ok reader word fault)
    (hr : HasRead allowed before reader) (hw : ∀ found ∈ before, IsWord found) :
    ∃ kind token, fault = .grammar kind token ∧
      Blames allowed (before ++ word :: after) kind token := by
  cases h with
  | @unopened _ awaited ho hne =>
    rw [HasRead, ho] at hr
    obtain ⟨words, rfl, hi, hu⟩ := hr
    have hb := hu.isBoundary fun found hf => hw found (List.mem_append_left _ hf)
    rw [List.append_assoc]
    exact ⟨_, _, rfl, .afterOperator hb hi hne⟩
  | noGroup ho hg =>
    rw [hasRead_of_operator_eq_none ho, hg] at hr
    cases hr with
    | top hd => exact ⟨_, _, rfl, .closing ((isRead_iff hw).mpr ⟨_, hd⟩)⟩
  | noMember ho hg hm =>
    rw [hasRead_of_operator_eq_none ho, hg] at hr
    cases hr with
    | @inside words introduction inner _ members _ head hu hi hd =>
      obtain rfl : members = [] := hm
      cases hd
      have hb := hu.isBoundary fun found hf => hw found (List.mem_append_left _ hf)
      rw [List.append_assoc, List.append_assoc]
      exact ⟨_, _, rfl, .empty hb hi⟩
  | forbidden ho hf =>
    rw [hasRead_of_operator_eq_none ho] at hr
    exact ⟨_, _, rfl, .forbidden (hr.isBoundary hw) hf⟩
  | malformed ho hm =>
    rw [hasRead_of_operator_eq_none ho] at hr
    exact ⟨_, _, rfl, .malformed (hr.isBoundary hw) hm⟩
  | rejected ho ht hr => cases hr

theorem HasRead.blames {reader : Reader String} {ws : List String} {fault : ParseFault}
    (hr : HasRead allowed ws reader) (h : reader.finish = .error fault)
    (hw : ∀ word ∈ ws, IsWord word) :
    ∃ kind token, fault = .grammar kind token ∧ Blames allowed ws kind token := by
  unfold finish at h
  split at h
  · rename_i awaited ho
    obtain rfl := Except.error.inj h
    rw [HasRead, ho] at hr
    obtain ⟨words, rfl, hi, hu⟩ := hr
    have hb := hu.isBoundary fun found hf => hw found (List.mem_append_left _ hf)
    exact ⟨_, _, rfl, .operatorLast hb hi⟩
  · rename_i group groups ho hg
    obtain rfl := Except.error.inj h
    rw [hasRead_of_operator_eq_none ho, hg] at hr
    cases hr with
    | @inside words introduction inner _ members _ head hu hi hd =>
      have hb := hu.isBoundary fun found hf => hw found (List.mem_append_left _ hf)
      have hin : IsRead allowed inner :=
        (isRead_iff fun found hf => hw found (by simp [hf])).mpr ⟨_, hd⟩
      exact ⟨_, _, rfl, .opening hb hi hin⟩
  · cases h

theorem exists_blames_of_run {ws : List String} {fault : ParseFault}
    (hw : ∀ word ∈ ws, IsWord word) (h : (start.run allowed .ok ws).result = .error fault) :
    ∃ kind token, fault = .grammar kind token ∧ Blames allowed ws kind token := by
  rw [run_result] at h
  cases hr : start.readWords allowed .ok ws with
  | ok reader =>
    rw [hr] at h
    have hread : HasRead allowed ws reader := hasRead_start.readWords hr
    exact hread.blames h hw
  | error found =>
    rw [hr] at h
    obtain rfl := Except.error.inj h
    obtain ⟨before, word, after, reader, rfl, hb, href⟩ := exists_refuses_of_readWords hr
    have hread : HasRead allowed before reader := hasRead_start.readWords hb
    exact href.blames hread fun found hf => hw found (List.mem_append_left _ hf)

end Reader

theorem Blames.run_result {ws : List String} {kind : GrammarFault} {token : Option String}
    (h : Blames allowed ws kind token) (hw : ∀ word ∈ ws, IsWord word) :
    (Reader.start.run allowed .ok ws).result = .error (.grammar kind token) := by
  cases h with
  | closing hb =>
    obtain ⟨items, hd⟩ :=
      (isRead_iff fun word hm => hw word (List.mem_append_left _ hm)).mp hb
    rw [Reader.run_derives .start items rfl hd]
    exact (Reader.Refuses.noGroup rfl rfl).run_result _
  | @opening before introduction inner head hb hi hin =>
    obtain ⟨reader, ho, hr⟩ := hb.exists_run hw
    obtain ⟨items, hd⟩ := (isRead_iff fun word hm => hw word (by simp [hm])).mp hin
    have hrun := Reader.run_derives (reader.openGroup head (introduction.headD "(")) items rfl hd []
    rw [List.append_nil] at hrun
    rw [hr, Reader.run_introduction ho hi, hrun]
    simp [Reader.run_nil, Reader.outcome, Reader.finish, Reader.accept, Reader.openGroup]
  | @empty before introduction after head hb hi =>
    obtain ⟨reader, ho, hr⟩ := hb.exists_run hw
    have hg : (reader.openGroup head (introduction.headD "(")).groups =
        ⟨head, introduction.headD "(", []⟩ :: reader.groups := rfl
    rw [hr, Reader.run_introduction ho hi]
    exact (Reader.Refuses.noMember rfl hg rfl).run_result _
  | operatorLast hb hi =>
    obtain ⟨reader, ho, hr⟩ := hb.exists_run hw
    rw [hr, (Reader.Step.await ho hi).run_eq]
    rfl
  | afterOperator hb hi hne =>
    obtain ⟨reader, ho, hr⟩ := hb.exists_run hw
    rw [hr, (Reader.Step.await ho hi).run_eq]
    exact (Reader.Refuses.unopened rfl hne).run_result _
  | forbidden hb hf =>
    obtain ⟨reader, ho, hr⟩ := hb.exists_run hw
    rw [hr, (Reader.Refuses.forbidden ho hf).run_result]
  | malformed hb hm =>
    obtain ⟨reader, ho, hr⟩ := hb.exists_run hw
    rw [hr, (Reader.Refuses.malformed ho hm).run_result]

/-- Reading fails with a fault exactly if the words have that fault, and then it names the text and
the word to blame. No text fails in any other way. -/
theorem parseWords_eq_error_iff_blames (allowed : AllowedOperators) (text : String)
    (error : Unparseable) :
    parseWords allowed text = .error error ↔
      error.text = text ∧
        ∃ kind token, error.fault = .grammar kind token ∧
          Blames allowed (words text) kind token := by
  have hw : ∀ word ∈ words text, IsWord word := fun word => isWord_of_mem_words
  rw [parseWords_eq_error_iff_run]
  refine and_congr_right fun _ => ⟨Reader.exists_blames_of_run hw, ?_⟩
  rintro ⟨kind, token, hf, hb⟩
  rw [hf]
  exact hb.run_result hw

example : parseWords ⟨true, false⟩ "a ( !!x? ( b )" =
    .error ⟨"a ( !!x? ( b )", .grammar .operatorNotAllowed (some "!!x?")⟩ := rfl

end DepSpec
