import DepSpec.Parse
import DepSpec.Proofs.Grammar

/-! Reading words against the grammar. The words of a derivation put its items in their place, and
what has been read without a fault is a derivation of the items so far, together with one that was
started in each group still open. -/

namespace DepSpec

namespace Reader

variable {α : Type} {allowed : AllowedOperators} {readTerm : String → Except String α}

/-- What reading one word without a fault comes to. -/
inductive Step (allowed : AllowedOperators) (readTerm : String → Except String α)
    (reader : Reader α) : String → Reader α → Prop
  | openPlain (ho : reader.operator = none) :
      Step allowed readTerm reader "(" (reader.openGroup .allOf "(")
  | openAwaited {head : Head} {operator : String} (ho : reader.operator = some (head, operator)) :
      Step allowed readTerm reader "(" (reader.openGroup head operator)
  | await {word : String} {head : Head} (ho : reader.operator = none)
      (hi : Introduces allowed [word] head) :
      Step allowed readTerm reader word (reader.await head word)
  | close {group : OpenGroup α} {groups : List (OpenGroup α)} (ho : reader.operator = none)
      (hg : reader.groups = group :: groups) (hne : group.members ≠ []) :
      Step allowed readTerm reader ")"
        ({ reader with
            groups := groups
            conditional := reader.conditional || group.head.test?.isSome }.place
          (.group group.head group.members.reverse))
  | term {word : String} {value : α} (ho : reader.operator = none) (ht : IsTermWord word)
      (hr : readTerm word = .ok value) :
      Step allowed readTerm reader word
        ({ reader with shown := word :: reader.shown }.place (.term value))

theorem conditionalHead_eq_ok_iff {test? : Option FlagTest} {head : Head} :
    allowed.conditionalHead test? = .ok head ↔
      allowed.conditional = true ∧ ∃ test, test? = some test ∧ head = .when test := by
  unfold AllowedOperators.conditionalHead
  by_cases hc : allowed.conditional = true
  · cases test? <;> simp [hc, eq_comm]
  · simp [hc]

theorem closeGroup_eq_ok_iff {reader next : Reader α} :
    reader.closeGroup = .ok next ↔
      ∃ group groups, reader.groups = group :: groups ∧ group.members ≠ [] ∧
        next = { reader with
          groups := groups
          conditional := reader.conditional || group.head.test?.isSome }.place
            (.group group.head group.members.reverse) := by
  unfold closeGroup
  cases hg : reader.groups with
  | nil => simp
  | cons group groups =>
    by_cases hm : group.members = []
    · simp [hm]
    · have he : group.members.isEmpty = false := by simpa using hm
      simp only [he, Bool.false_eq_true, if_false, Except.ok.injEq]
      constructor
      · rintro rfl
        exact ⟨group, groups, rfl, hm, rfl⟩
      · rintro ⟨_, _, hgs, -, rfl⟩
        obtain ⟨rfl, rfl⟩ := List.cons.inj hgs
        rfl

theorem readWord_eq_ok_iff {reader next : Reader α} {word : String} :
    reader.readWord allowed readTerm word = .ok next ↔ Step allowed readTerm reader word next := by
  constructor
  · intro h
    unfold readWord at h
    split at h
    · rename_i head operator ho hw
      obtain rfl := Token.ofString_eq_opening_iff.mp hw
      obtain rfl := Except.ok.inj h
      exact .openAwaited ho
    · simp at h
    · rename_i ho hw
      obtain rfl := Token.ofString_eq_opening_iff.mp hw
      obtain rfl := Except.ok.inj h
      exact .openPlain ho
    · rename_i ho hw
      obtain rfl := Token.ofString_eq_closing_iff.mp hw
      obtain ⟨group, groups, hg, hne, rfl⟩ := closeGroup_eq_ok_iff.mp h
      exact .close ho hg hne
    · rename_i ho hw
      obtain rfl := Token.ofString_eq_anyOf_iff.mp hw
      split at h
      · rename_i ha
        obtain rfl := Except.ok.inj h
        exact .await ho (.anyOf ha)
      · simp at h
    · rename_i test? ho hw
      split at h
      · rename_i head hh
        obtain ⟨hc, test, rfl, rfl⟩ := conditionalHead_eq_ok_iff.mp hh
        obtain rfl := Except.ok.inj h
        exact .await ho (.when hc (Token.ofString_eq_flag_iff.mp hw))
      · simp at h
    · simp at h
    · rename_i ho hw
      split at h
      · rename_i value hr
        obtain rfl := Except.ok.inj h
        exact .term ho (Token.ofString_eq_term_iff.mp hw) hr
      · simp at h
  · intro h
    cases h with
    | openPlain ho => simp [readWord, ho, Token.ofString_eq_opening_iff.mpr]
    | openAwaited ho => simp [readWord, ho, Token.ofString_eq_opening_iff.mpr]
    | await ho hi =>
      cases hi with
      | anyOf ha => simp [readWord, ho, Token.ofString_eq_anyOf_iff.mpr, ha]
      | when hc hw =>
        simp [readWord, ho, Token.ofString_eq_flag_iff.mpr hw, AllowedOperators.conditionalHead, hc]
    | close ho hg hne =>
      have hc := closeGroup_eq_ok_iff.mpr ⟨_, _, hg, hne, rfl⟩
      simp [readWord, ho, Token.ofString_eq_closing_iff.mpr, hc]
    | term ho ht hr => simp [readWord, ho, Token.ofString_eq_term_iff.mpr ht, hr]

theorem Step.run_eq {reader next : Reader α} {word : String}
    (h : Step allowed readTerm reader word next) (rest : List String) :
    reader.run allowed readTerm (word :: rest) = next.run allowed readTerm rest := by
  rw [run_cons, readWord_eq_ok_iff.mpr h]

theorem Step.operator_eq_none {reader next : Reader α} {word : String}
    (h : Step allowed readTerm reader word next) (ht : IsTermWord word) :
    reader.operator = none := by
  cases h with
  | openPlain ho => exact ho
  | openAwaited ho => simp [IsTermWord] at ht
  | await ho hi => exact ho
  | close ho hg hne => exact ho
  | term ho ht hr => exact ho

theorem run_introduction {reader : Reader α} {introduction : List String} {head : Head}
    (ho : reader.operator = none) (hi : Introduces allowed introduction head)
    (rest : List String) :
    reader.run allowed readTerm (introduction ++ "(" :: rest) =
      (reader.openGroup head (introduction.headD "(")).run allowed readTerm rest := by
  cases hi with
  | allOf => exact (Step.openPlain ho).run_eq rest
  | anyOf ha =>
    have hs : Step allowed readTerm reader "||" (reader.await .anyOf "||") := .await ho (.anyOf ha)
    rw [List.singleton_append, hs.run_eq, (Step.openAwaited rfl).run_eq]
    rfl
  | when hc hw =>
    have hs : Step allowed readTerm reader _ (reader.await _ _) := .await ho (.when hc hw)
    rw [List.singleton_append, hs.run_eq, (Step.openAwaited rfl).run_eq]
    rfl

/-- The reader with further items in place, read from words whose terms were shown. -/
def accept (reader : Reader String) (items : List (Item String)) : Reader String :=
  let reader := { reader with
    conditional := reader.conditional || !(testsOfItems items).isEmpty
    shown := (termsOfItems items).reverse ++ reader.shown }
  match reader.groups with
  | [] => { reader with items := items.reverse ++ reader.items }
  | group :: groups =>
    { reader with groups := { group with members := items.reverse ++ group.members } :: groups }

theorem accept_nil (reader : Reader String) : reader.accept [] = reader := by
  obtain ⟨items, _ | ⟨group, groups⟩, operator, conditional, shown⟩ := reader <;>
    simp [accept, testsOfItems, termsOfItems]

theorem accept_accept (reader : Reader String) (xs ys : List (Item String)) :
    (reader.accept xs).accept ys = reader.accept (xs ++ ys) := by
  have hc : ∀ b : Bool, (b || !(testsOfItems xs).isEmpty || !(testsOfItems ys).isEmpty) =
      (b || !(testsOfItems (xs ++ ys)).isEmpty) := by
    intro b
    rw [testsOfItems_append]
    cases testsOfItems xs <;> simp
  obtain ⟨items, _ | ⟨group, groups⟩, operator, conditional, shown⟩ := reader <;>
    simp [accept, hc, termsOfItems_append]

theorem operator_accept (reader : Reader String) (items : List (Item String)) :
    (reader.accept items).operator = reader.operator := by
  obtain ⟨_, _ | ⟨group, groups⟩, operator, conditional, shown⟩ := reader <;> rfl

theorem Step.term_accept {reader : Reader String} {word : String} (ho : reader.operator = none)
    (ht : IsTermWord word) : Step allowed .ok reader word (reader.accept [.term word]) := by
  have hs : Step allowed .ok reader word
      ({ reader with shown := word :: reader.shown }.place (.term word)) := .term ho ht rfl
  have he : { reader with shown := word :: reader.shown }.place (.term word) =
      reader.accept [.term word] := by
    obtain ⟨items, _ | ⟨group, groups⟩, operator, conditional, shown⟩ := reader <;>
      simp [place, accept, testsOfItems, termsOfItems, Item.tests, Item.terms]
  rwa [he] at hs

theorem Step.close_accept {reader : Reader String} {head : Head} {openedBy : String}
    {members : List (Item String)} (ho : reader.operator = none) (hne : members ≠ []) :
    Step allowed .ok ((reader.openGroup head openedBy).accept members) ")"
      (reader.accept [.group head members]) := by
  have hg : ((reader.openGroup head openedBy).accept members).groups =
      ⟨head, openedBy, members.reverse⟩ :: reader.groups := by simp [openGroup, accept]
  have hs : Step allowed .ok ((reader.openGroup head openedBy).accept members) ")" _ :=
    .close (operator_accept _ members) hg (by simpa using hne)
  refine Eq.mp ?_ hs
  congr 1
  obtain ⟨items, _ | ⟨group, groups⟩, operator, conditional, shown⟩ := reader <;>
    cases hh : head.test? <;>
    simp_all [place, openGroup, accept, testsOfItems, termsOfItems, Item.tests, Item.terms]

mutual

theorem run_derivesItem (reader : Reader String) {words : List String} (item : Item String)
    (ho : reader.operator = none) (h : DerivesItem allowed words item) (rest : List String) :
    reader.run allowed .ok (words ++ rest) = (reader.accept [item]).run allowed .ok rest := by
  match item with
  | .term word =>
    cases h with
    | term ht => exact (Step.term_accept ho ht).run_eq rest
  | .group head members =>
    cases h with
    | @group introduction words _ _ hi hne hm =>
      have hr := run_derives (reader.openGroup head (introduction.headD "(")) members rfl hm
        (")" :: rest)
      calc reader.run allowed .ok (introduction ++ "(" :: (words ++ [")"]) ++ rest)
          = reader.run allowed .ok (introduction ++ "(" :: (words ++ ")" :: rest)) := by simp
        _ = _ := run_introduction ho hi _
        _ = _ := hr
        _ = _ := (Step.close_accept ho hne).run_eq rest

/-- Words that derive items are read as these, whatever has been read before and comes after. -/
theorem run_derives (reader : Reader String) {words : List String} (items : List (Item String))
    (ho : reader.operator = none) (h : Derives allowed words items) (rest : List String) :
    reader.run allowed .ok (words ++ rest) = (reader.accept items).run allowed .ok rest := by
  match items with
  | [] =>
    cases h
    rw [accept_nil, List.nil_append]
  | item :: items =>
    cases h with
    | cons hi hr =>
      rw [List.append_assoc, run_derivesItem reader item ho hi,
        run_derives _ items ((operator_accept reader [item]).trans ho) hr, accept_accept,
        List.singleton_append]

end

/-- Words that derive the items at the top and, in each group still open, its members so far. -/
inductive Unfinished (allowed : AllowedOperators) :
    List String → List (Item String) → List (OpenGroup String) → Prop
  | top {words : List String} {items : List (Item String)}
      (h : Derives allowed words items.reverse) :
      Unfinished allowed words items []
  | inside {words introduction inner : List String} {items members : List (Item String)}
      {groups : List (OpenGroup String)} {head : Head} (h : Unfinished allowed words items groups)
      (hi : Introduces allowed introduction head) (hm : Derives allowed inner members.reverse) :
      Unfinished allowed (words ++ (introduction ++ "(" :: inner)) items
        (⟨head, introduction.headD "(", members⟩ :: groups)

/-- The reader has read the words: they are unfinished, but for an operator at their end. -/
def HasRead (allowed : AllowedOperators) (words : List String) (reader : Reader String) : Prop :=
  match reader.operator with
  | none => Unfinished allowed words reader.items reader.groups
  | some (head, operator) =>
    ∃ before, words = before ++ [operator] ∧ Introduces allowed [operator] head ∧
      Unfinished allowed before reader.items reader.groups

theorem hasRead_start : HasRead allowed [] start :=
  Unfinished.top .nil

theorem hasRead_of_operator_eq_none {reader : Reader String} {words : List String}
    (ho : reader.operator = none) :
    HasRead allowed words reader ↔ Unfinished allowed words reader.items reader.groups := by
  rw [HasRead, ho]

theorem Unfinished.place (reader : Reader String) {words first : List String} {item : Item String}
    (h : Unfinished allowed words reader.items reader.groups)
    (hi : DerivesItem allowed first item) :
    Unfinished allowed (words ++ first) (reader.place item).items (reader.place item).groups := by
  have hone : Derives allowed first [item] := .single hi
  obtain ⟨items, groups, operator, conditional, shown⟩ := reader
  cases h with
  | top hd =>
    refine .top ?_
    simpa [Reader.place] using hd.append hone
  | @inside before introduction inner _ members groups head h hi hm =>
    have hm' : Derives allowed (inner ++ first) (item :: members).reverse := by
      simpa using hm.append hone
    simpa [Reader.place] using Unfinished.inside h hi hm'

theorem operator_place (reader : Reader α) (item : Item α) :
    (reader.place item).operator = reader.operator := by
  unfold place
  split <;> rfl

theorem HasRead.step {reader next : Reader String} {words : List String} {word : String}
    (h : HasRead allowed words reader) (hs : Step allowed .ok reader word next) :
    HasRead allowed (words ++ [word]) next := by
  cases hs with
  | openPlain ho =>
    rw [hasRead_of_operator_eq_none ho] at h
    exact h.inside .allOf .nil
  | @openAwaited head operator ho =>
    rw [HasRead, ho] at h
    obtain ⟨before, rfl, hi, hu⟩ := h
    have hd : Unfinished allowed (before ++ ([operator] ++ "(" :: [])) reader.items
      (⟨head, operator, []⟩ :: reader.groups) := hu.inside hi .nil
    rw [hasRead_of_operator_eq_none rfl]
    simpa [openGroup] using hd
  | await ho hi =>
    rw [hasRead_of_operator_eq_none ho] at h
    exact ⟨words, rfl, hi, h⟩
  | @close _ groups ho hg hne =>
    rw [hasRead_of_operator_eq_none ho, hg] at h
    rw [hasRead_of_operator_eq_none (by rw [operator_place]; exact ho)]
    cases h with
    | @inside before introduction inner _ members _ head hu hi hm =>
      have hd : DerivesItem allowed (introduction ++ "(" :: (inner ++ [")"]))
          (.group head members.reverse) := .group hi (by simpa using hne) hm
      have hp := Unfinished.place { reader with
        groups := groups
        conditional := reader.conditional || head.test?.isSome } hu hd
      simpa using hp
  | term ho ht hr =>
    rw [hasRead_of_operator_eq_none ho] at h
    rw [hasRead_of_operator_eq_none (by rw [operator_place]; exact ho)]
    obtain rfl := Except.ok.inj hr
    exact Unfinished.place { reader with shown := word :: reader.shown } h (.term ht)

theorem finish_eq_ok_iff {reader : Reader α} {spec : Spec α} :
    reader.finish = .ok spec ↔ reader.operator = none ∧ reader.groups = [] ∧
      spec = ⟨reader.items.reverse, reader.conditional⟩ := by
  unfold finish
  split <;> simp_all [eq_comm]

/-- Words that are read to the end derive the items that were read. -/
theorem HasRead.run {reader : Reader String} {words rest : List String} {spec : Spec String}
    (h : HasRead allowed words reader) (hr : (reader.run allowed .ok rest).result = .ok spec) :
    Derives allowed (words ++ rest) spec.items := by
  induction rest generalizing words reader with
  | nil =>
    rw [run_nil] at hr
    cases hf : reader.finish with
    | error fault => simp [hf, outcome] at hr
    | ok found =>
      simp only [hf, outcome, Except.ok.injEq] at hr
      subst hr
      obtain ⟨ho, hg, rfl⟩ := finish_eq_ok_iff.mp hf
      rw [hasRead_of_operator_eq_none ho, hg] at h
      cases h with
      | top hd => simpa using hd
  | cons word rest ih =>
    rw [run_cons] at hr
    cases hw : reader.readWord allowed .ok word with
    | error fault => simp [hw, outcome] at hr
    | ok next =>
      simp only [hw] at hr
      have hd := ih (h.step (readWord_eq_ok_iff.mp hw)) hr
      simpa using hd

theorem run_start_of_derives {words : List String} {items : List (Item String)}
    (h : Derives allowed words items) :
    start.run allowed .ok words =
      ⟨.ok ⟨items, !(testsOfItems items).isEmpty⟩, termsOfItems items⟩ := by
  have hr := run_derives start items rfl h []
  rw [List.append_nil] at hr
  rw [hr]
  simp [run_nil, finish, outcome, accept, start]

end Reader

variable {allowed : AllowedOperators}

theorem parse_result_eq_ok_iff {α : Type} {readTerm : String → Except String α} {text : String}
    {spec : Spec α} :
    (parse allowed readTerm text).result = .ok spec ↔
      (Reader.start.run allowed readTerm (words text)).result = .ok spec := by
  rw [parse_eq]
  cases (Reader.start.run allowed readTerm (words text)).result with
  | ok found =>
    change Except.ok found = Except.ok spec ↔ _
    rw [Except.ok.injEq, Except.ok.injEq]
  | error fault =>
    change Except.error _ = Except.ok spec ↔ _
    simp

theorem parse_result_eq_error_iff {α : Type} {readTerm : String → Except String α}
    {text : String} {error : Unparseable} :
    (parse allowed readTerm text).result = .error error ↔
      error.text = text ∧
        (Reader.start.run allowed readTerm (words text)).result = .error error.fault := by
  rw [parse_eq]
  obtain ⟨of, fault⟩ := error
  cases (Reader.start.run allowed readTerm (words text)).result with
  | ok spec =>
    change Except.ok _ = Except.error _ ↔ _
    simp
  | error found =>
    change Except.error _ = Except.error _ ↔ _
    simp [eq_comm]

theorem parseWords_eq_ok_iff {text : String} {spec : Spec String} :
    parseWords allowed text = .ok spec ↔
      Derives allowed (words text) spec.items ∧
        spec.conditional = !(testsOfItems spec.items).isEmpty := by
  rw [parseWords, parse_result_eq_ok_iff]
  constructor
  · intro h
    have hd := Reader.hasRead_start.run h
    rw [List.nil_append] at hd
    rw [Reader.run_start_of_derives hd] at h
    exact ⟨hd, congrArg Spec.conditional (Except.ok.inj h).symm⟩
  · rintro ⟨hd, hc⟩
    rw [Reader.run_start_of_derives hd, ← hc]

/-- Reading succeeds on what the grammar derives, with the items of the derivation, and marks the
specification exactly when these have a test, that is when there is no derivation without flags. -/
theorem parseWords_eq_ok_iff_derives (allowed : AllowedOperators) (text : String)
    (items : List (Item String)) (conditional : Bool) :
    parseWords allowed text = .ok ⟨items, conditional⟩ ↔
      Derives allowed (words text) items ∧
        (conditional = true ↔ ∃ test, test ∈ testsOfItems items) ∧
        (conditional = false ↔
          Derives { allowed with conditional := false } (words text) items) := by
  rw [parseWords_eq_ok_iff]
  refine and_congr_right fun hd => ?_
  rw [hd.withoutConditional_iff]
  cases ht : testsOfItems items <;> cases conditional <;> simp

end DepSpec
