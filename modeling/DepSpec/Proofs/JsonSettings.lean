import DepSpec.JsonInput
import DepSpec.Proofs.JsonRecords
import DepSpec.Proofs.JsonSpelling

/-! Flag selections, allowed operators and metadata keys are read exactly from the JSON values that
give them. -/

namespace DepSpec

namespace Json

variable {ρ σ τ : Type}

/-- A part of a record: the name of its field, how it is written, and what it is by default. -/
structure RecordPart (σ : Type) where
  name : String
  write : σ → Value
  absent : σ

/-- The values of the members with a key. -/
def valuesAt (key : String) : List (Option String × Value) → List Value
  | [] => []
  | (other, value) :: members =>
    if other = some key then value :: valuesAt key members else valuesAt key members

/-- Given once, a part is what it was written from; not given, it is absent. -/
def RecordPart.IsGivenBy (part : RecordPart σ) (values : List Value) (found : σ) : Prop :=
  values = [] ∧ found = part.absent ∨ values = [part.write found]

/-- An object gives both parts by their names, whatever its other members; a list gives them in
order. -/
def Value.GivesPair (first : RecordPart σ) (second : RecordPart τ) (a : σ) (b : τ) : Value → Prop
  | .object members => (∀ member ∈ members, member.1 ≠ none) ∧
    first.IsGivenBy (valuesAt first.name members) a ∧
      second.IsGivenBy (valuesAt second.name members) b
  | .list values => first.IsGivenBy (values.take 1) a ∧ second.IsGivenBy (values.drop 1) b
  | _ => False

/-- A part that is not given any more if its name was seen. -/
def RecordPart.IsGivenAfter (part : RecordPart σ) (seen : List String)
    (members : List (Option String × Value)) (before found : σ) : Prop :=
  valuesAt part.name members = [] ∧ found = before ∨
    part.name ∉ seen ∧ valuesAt part.name members = [part.write found]

section Given

variable {part : RecordPart σ} {seen : List String} {members : List (Option String × Value)}
  {before found : σ}

theorem isGivenAfter_nil : part.IsGivenAfter [] members part.absent found ↔
    part.IsGivenBy (valuesAt part.name members) found := by
  simp [RecordPart.IsGivenAfter, RecordPart.IsGivenBy]

theorem isGivenAfter_seen :
    part.IsGivenAfter (part.name :: seen) members before found ↔
      valuesAt part.name members = [] ∧ found = before := by
  simp [RecordPart.IsGivenAfter]

theorem isGivenAfter_cons_same {value : Value} :
    part.IsGivenAfter seen ((some part.name, value) :: members) before found ↔
      part.name ∉ seen ∧ value = part.write found ∧ valuesAt part.name members = [] := by
  simp [RecordPart.IsGivenAfter, valuesAt]

theorem isGivenAfter_cons_other {key : String} {value : Value} (hk : part.name ≠ key) :
    part.IsGivenAfter seen ((some key, value) :: members) before found ↔
      part.IsGivenAfter (key :: seen) members before found := by
  simp [RecordPart.IsGivenAfter, valuesAt, hk, hk.symm]

end Given

/-- A field that sets a part of a record from what this part is written with. -/
structure RecordField.Sets (field : RecordField ρ) (part : RecordPart σ) (set : ρ → σ → ρ) :
    Prop where
  name_eq : field.name = part.name
  read_eq_ok_iff : ∀ {record next : ρ} {lexemes rest : List Lexeme},
    field.read record lexemes = .ok (next, rest) ↔
      ∃ found, lexemes = (part.write found).lexemes ++ rest ∧ set record found = next

namespace RecordField

variable {field : RecordField ρ} {part : RecordPart σ} {set : ρ → σ → ρ}

theorem Sets.of_inverts (part : RecordPart σ) {read : Reads σ} (h : Inverts read part.write)
    (set : ρ → σ → ρ) :
    Sets ⟨part.name, fun record => do return set record (← read)⟩ part set where
  name_eq := rfl
  read_eq_ok_iff := by
    intro record next lexemes rest
    simp only [Reads.bind_eq_ok_iff, Reads.pure_eq_ok_iff]
    constructor
    · rintro ⟨found, _, hr, rfl, rfl⟩
      exact ⟨found, h.mp hr, rfl⟩
    · rintro ⟨found, hl, rfl⟩
      exact ⟨found, rest, h.mpr hl, rfl, rfl⟩

theorem Sets.takesValue (h : field.Sets part set) (record : ρ) :
    TakesValue (field.read record) := by
  intro lexemes rest next
  rw [h.read_eq_ok_iff]
  constructor
  · rintro ⟨found, rfl, hs⟩
    exact ⟨part.write found, rfl, h.read_eq_ok_iff.mpr ⟨found, by simp, hs⟩⟩
  · rintro ⟨value, rfl, hr⟩
    obtain ⟨found, hl, hs⟩ := h.read_eq_ok_iff.mp hr
    rw [List.append_nil] at hl
    exact ⟨found, by rw [hl], hs⟩

theorem Sets.set?_eq_some_iff (h : field.Sets part set) {record next : ρ} {value : Value} :
    field.set? record value = some next ↔
      ∃ found, value = part.write found ∧ set record found = next := by
  rw [RecordField.set?_eq_some_iff, h.read_eq_ok_iff]
  constructor
  · rintro ⟨found, hl, hs⟩
    rw [List.append_nil] at hl
    exact ⟨found, Value.lexemes_injective hl, hs⟩
  · rintro ⟨found, rfl, hs⟩
    exact ⟨found, by simp, hs⟩

end RecordField

section Pair

variable {first second : RecordField ρ} {p : RecordPart σ} {q : RecordPart τ} {make : σ → τ → ρ}
  {setFirst : ρ → σ → ρ} {setSecond : ρ → τ → ρ} {next last : ρ}

/-- The first and the second field of a record that is made of two parts. -/
structure SetsPair (first second : RecordField ρ) (p : RecordPart σ) (q : RecordPart τ)
    (make : σ → τ → ρ) (setFirst : ρ → σ → ρ) (setSecond : ρ → τ → ρ) : Prop where
  first : first.Sets p setFirst
  second : second.Sets q setSecond
  name_ne : p.name ≠ q.name
  setFirst_make : ∀ a b x, setFirst (make a b) x = make x b
  setSecond_make : ∀ a b y, setSecond (make a b) y = make a y

namespace SetsPair

variable (h : SetsPair first second p q make setFirst setSecond)

include h

theorem takesValue : ∀ field ∈ [first, second], ∀ record, TakesValue (field.read record) := by
  intro field hm record
  simp only [List.mem_cons, List.not_mem_nil, or_false] at hm
  rcases hm with rfl | rfl
  · exact h.first.takesValue record
  · exact h.second.takesValue record

theorem isRepeated_eq_false_iff {seen : List String} {key : String} :
    isRepeated [first, second] seen key = false ↔
      (p.name = key ∨ q.name = key → key ∉ seen) := by
  simp only [isRepeated, List.any_cons, List.any_nil, h.first.name_eq, h.second.name_eq]
  by_cases hk : p.name = key ∨ q.name = key
  · simp [hk]
  · simp [not_or.mp hk]

theorem setMember_eq_some_iff {key : String} {a : σ} {b : τ} {value : Value} :
    setMember [first, second] key (make a b) value = some next ↔
      p.name = key ∧ (∃ x, value = p.write x ∧ make x b = next) ∨
        q.name = key ∧ (∃ y, value = q.write y ∧ make a y = next) ∨
          p.name ≠ key ∧ q.name ≠ key ∧ make a b = next := by
  have hn := h.name_ne
  simp only [setMember, List.find?_cons, List.find?_nil, h.first.name_eq, h.second.name_eq]
  by_cases hp : p.name = key
  · have hq : q.name ≠ key := fun he => hn (hp.trans he.symm)
    simp [hp, hq, h.first.set?_eq_some_iff, h.setFirst_make]
  · by_cases hq : q.name = key
    · simp [hp, beq_false_of_ne hp, hq, h.second.set?_eq_some_iff, h.setSecond_make]
    · simp [hp, beq_false_of_ne hp, hq, beq_false_of_ne hq]

theorem setMembers_eq_some_iff {members : List (Option String × Value)} {seen : List String}
    {a : σ} {b : τ} :
    setMembers [first, second] seen members (make a b) = some last ↔
      (∀ member ∈ members, member.1 ≠ none) ∧ ∃ x y, p.IsGivenAfter seen members a x ∧
        q.IsGivenAfter seen members b y ∧ make x y = last := by
  induction members generalizing seen a b with
  | nil => simp [setMembers, RecordPart.IsGivenAfter, valuesAt]
  | cons member members ih =>
    obtain ⟨key?, value⟩ := member
    cases key? with
    | none => simp [setMembers]
    | some key =>
      have hn := h.name_ne
      have hkeys : (∀ member ∈ (some key, value) :: members, member.1 ≠ none) ↔
          ∀ member ∈ members, member.1 ≠ none := by simp
      rw [setMembers_cons_eq_some_iff, h.isRepeated_eq_false_iff, hkeys]
      simp only [h.setMember_eq_some_iff]
      constructor
      · rintro ⟨hs, _, ⟨rfl, x, rfl, rfl⟩ | ⟨rfl, y, rfl, rfl⟩ | ⟨hp, hq, rfl⟩, hl⟩
        · obtain ⟨hm, _, y, hx, hy, rfl⟩ := ih.mp hl
          obtain ⟨hv, rfl⟩ := isGivenAfter_seen.mp hx
          exact ⟨hm, _, y, isGivenAfter_cons_same.mpr ⟨hs (.inl rfl), rfl, hv⟩,
            (isGivenAfter_cons_other hn.symm).mpr hy, rfl⟩
        · obtain ⟨hm, x, _, hx, hy, rfl⟩ := ih.mp hl
          obtain ⟨hv, rfl⟩ := isGivenAfter_seen.mp hy
          exact ⟨hm, x, _, (isGivenAfter_cons_other hn).mpr hx,
            isGivenAfter_cons_same.mpr ⟨hs (.inr rfl), rfl, hv⟩, rfl⟩
        · obtain ⟨hm, x, y, hx, hy, rfl⟩ := ih.mp hl
          exact ⟨hm, x, y, (isGivenAfter_cons_other hp).mpr hx,
            (isGivenAfter_cons_other hq).mpr hy, rfl⟩
      · rintro ⟨hm, x, y, hx, hy, rfl⟩
        by_cases hp : p.name = key
        · subst hp
          obtain ⟨hs, rfl, hv⟩ := isGivenAfter_cons_same.mp hx
          rw [isGivenAfter_cons_other hn.symm] at hy
          exact ⟨fun _ => hs, _, .inl ⟨rfl, x, rfl, rfl⟩,
            ih.mpr ⟨hm, x, y, isGivenAfter_seen.mpr ⟨hv, rfl⟩, hy, rfl⟩⟩
        · rw [isGivenAfter_cons_other hp] at hx
          by_cases hq : q.name = key
          · subst hq
            obtain ⟨hs, rfl, hv⟩ := isGivenAfter_cons_same.mp hy
            exact ⟨fun _ => hs, _, .inr (.inl ⟨rfl, y, rfl, rfl⟩),
              ih.mpr ⟨hm, x, y, hx, isGivenAfter_seen.mpr ⟨hv, rfl⟩, rfl⟩⟩
          · rw [isGivenAfter_cons_other hq] at hy
            exact ⟨fun hk => absurd hk (not_or.mpr ⟨hp, hq⟩), _, .inr (.inr ⟨hp, hq, rfl⟩),
              ih.mpr ⟨hm, x, y, hx, hy, rfl⟩⟩

theorem setEntries_eq_some_iff {values : List Value} :
    setEntries [first, second] values (make p.absent q.absent) = some last ↔
      ∃ x y, p.IsGivenBy (values.take 1) x ∧ q.IsGivenBy (values.drop 1) y ∧ make x y = last := by
  match values with
  | [] => simp [setEntries, RecordPart.IsGivenBy]
  | [value] =>
    simp [setEntries, RecordPart.IsGivenBy, h.first.set?_eq_some_iff, h.setFirst_make]
  | [value, other] =>
    simp only [setEntries, Option.bind_eq_some_iff, h.first.set?_eq_some_iff, h.setFirst_make,
      h.second.set?_eq_some_iff]
    constructor
    · rintro ⟨_, ⟨x, rfl, rfl⟩, _, ⟨y, rfl, rfl⟩, hl⟩
      rw [h.setSecond_make] at hl
      exact ⟨x, y, .inr rfl, .inr rfl, Option.some.inj hl⟩
    · rintro ⟨x, y, hx, hy, rfl⟩
      obtain rfl : value = p.write x := by simpa [RecordPart.IsGivenBy] using hx
      obtain rfl : other = q.write y := by simpa [RecordPart.IsGivenBy] using hy
      exact ⟨_, ⟨x, rfl, rfl⟩, _, ⟨y, rfl, h.setSecond_make _ _ _⟩, rfl⟩
  | _ :: _ :: _ :: _ =>
    simp [setEntries, RecordPart.IsGivenBy]

/-- A record of two parts is read from the values that give these parts. -/
theorem readAll_eq_ok_iff {text : String} :
    readAll (readRecord [first, second] (make p.absent q.absent)) text = .ok last ↔
      ∃ value x y, lex text = Value.lexemes value ∧ value.GivesPair p q x y ∧ make x y = last := by
  rw [readAll_readRecord_eq_ok_iff h.takesValue]
  refine exists_congr fun value => ?_
  cases value with
  | word | text | number => simp [Value.toRecord?, Value.GivesPair]
  | list values =>
    rw [Value.toRecord?, h.setEntries_eq_some_iff]
    simp [Value.GivesPair, and_assoc]
  | object members =>
    rw [Value.toRecord?, h.setMembers_eq_some_iff]
    simp [Value.GivesPair, isGivenAfter_nil, and_assoc]

end SetsPair

end Pair

theorem readKnown_eq_ok_iff {ofName? : String → Option σ} {read : Reads String}
    {lexemes rest : List Lexeme} {found : σ} :
    readKnown ofName? read lexemes = .ok (found, rest) ↔
      ∃ name, ofName? name = some found ∧ read lexemes = .ok (name, rest) := by
  rw [readKnown, Reads.bind_eq_ok_iff]
  constructor
  · rintro ⟨name, behind, hr, hk⟩
    cases hn : ofName? name with
    | none => simp [hn] at hk
    | some value =>
      rw [hn] at hk
      obtain ⟨rfl, rfl⟩ := Reads.pure_eq_ok_iff.mp hk
      exact ⟨name, hn, hr⟩
  · rintro ⟨name, hn, hr⟩
    exact ⟨name, rest, hr, by simp [hn]⟩

theorem readName_eq_ok_iff {ofName? : String → Option σ} {lexemes rest : List Lexeme}
    {found : σ} :
    readName ofName? lexemes = .ok (found, rest) ↔
      ∃ name, ofName? name = some found ∧
        (lexemes = (Value.text (some name)).lexemes ++ rest ∨
          lexemes = (Value.object [(some name, .word .null)]).lexemes ++ rest) := by
  rw [readName, Reads.bind_eq_ok_iff]
  simp only [peek_eq_ok_iff]
  constructor
  · rintro ⟨first, _, ⟨rfl, hp⟩, hr⟩
    split at hr
    · simp only [Reads.bind_eq_ok_iff, next_eq_ok_iff, readKnown_eq_ok_iff, readKey_eq_ok_iff,
        readMark_eq_ok_iff, readNull_eq_ok_iff, Reads.pure_eq_ok_iff] at hr
      obtain ⟨_, _, rfl, _, _, ⟨name, hn, rfl⟩, _, _, rfl, _, _, rfl, _, _, rfl, rfl, rfl⟩ := hr
      obtain rfl := Option.some.inj hp
      exact ⟨name, hn, .inr rfl⟩
    · obtain ⟨name, hn, ht⟩ := readKnown_eq_ok_iff.mp hr
      exact ⟨name, hn, .inl (readText_eq_ok_iff.mp ht)⟩
    · obtain ⟨name, hn, ht⟩ := readKnown_eq_ok_iff.mp hr
      exact ⟨name, hn, .inl (readText_eq_ok_iff.mp ht)⟩
    · simp at hr
  · rintro ⟨name, hn, rfl | rfl⟩
    · refine ⟨.text (some name), _, ⟨rfl, rfl⟩, ?_⟩
      exact readKnown_eq_ok_iff.mpr ⟨name, hn, readText_eq_ok_iff.mpr rfl⟩
    · refine ⟨.mark '\x7b', _, ⟨rfl, rfl⟩, ?_⟩
      simp only [Reads.bind_eq_ok_iff, next_eq_ok_iff, readKnown_eq_ok_iff, readKey_eq_ok_iff,
        readMark_eq_ok_iff, readNull_eq_ok_iff, Reads.pure_eq_ok_iff]
      exact ⟨_, _, rfl, found, _, ⟨name, hn, rfl⟩, (), _, rfl, (), _, rfl, (), rest, rfl, rfl, rfl⟩

end Json

open Json

namespace FlagSelection

def enabledPart : RecordPart (List String) := ⟨"enabled", .ofTexts, []⟩

def restrictionPart : RecordPart (Option (List String)) := ⟨"restrict_to", .ofOption .ofTexts, none⟩

/-- A selection is read from the values that give its parts, which are absent by default. -/
theorem ofJson_eq_ok_iff {text : String} {selection : FlagSelection} :
    ofJson text = .ok selection ↔
      ∃ value enabled restriction, lex text = Value.lexemes value ∧
        value.GivesPair enabledPart restrictionPart enabled restriction ∧
          ofNames enabled restriction = selection := by
  have hn : ∀ texts, Value.ofTexts texts ≠ .word .null := by simp [Value.ofTexts]
  have h : SetsPair _ _ enabledPart restrictionPart ofNames _ _ :=
    { first := .of_inverts enabledPart inverts_readTexts
        fun selection enabled => { selection with enabled := sortedNames enabled }
      second := .of_inverts restrictionPart (inverts_readTexts.readOptional hn)
        fun selection restriction =>
          { selection with restriction := restriction.map sortedNames }
      name_ne := by simp [enabledPart, restrictionPart]
      setFirst_make := fun _ _ _ => rfl
      setSecond_make := fun _ _ _ => rfl }
  have hd : default = ofNames enabledPart.absent restrictionPart.absent := by
    simp [default, ofNames, enabledPart, restrictionPart, sortedNames, withoutRepeats]
  rw [ofJson, hd]
  exact h.readAll_eq_ok_iff

theorem ofJson_of_isSpelledBy {text : String} {value : Value} {enabled : List String}
    {restriction : Option (List String)} (hs : value.IsSpelledBy text)
    (h : value.GivesPair enabledPart restrictionPart enabled restriction) :
    ofJson text = .ok (ofNames enabled restriction) :=
  ofJson_eq_ok_iff.mpr ⟨value, enabled, restriction, hs.lex_eq, h, rfl⟩

example : ofJson "\x7b \"note\": [null], \"enabled\": [\"b\", \"a\", \"b\"] \x7d" =
    .ok (ofNames ["a", "b"] none) := by
  cbv

end FlagSelection

namespace AllowedOperators

def anyOfPart : RecordPart Bool := ⟨"allow_any_of", .ofBool, true⟩

def conditionalPart : RecordPart Bool := ⟨"allow_conditionals", .ofBool, true⟩

theorem ofJson_eq_ok_iff {text : String} {allowed : AllowedOperators} :
    ofJson text = .ok allowed ↔
      ∃ value anyOf conditional, lex text = Value.lexemes value ∧
        value.GivesPair anyOfPart conditionalPart anyOf conditional ∧
          ⟨anyOf, conditional⟩ = allowed := by
  have h : SetsPair _ _ anyOfPart conditionalPart AllowedOperators.mk _ _ :=
    { first := .of_inverts anyOfPart inverts_readBool
        fun allowed anyOf => { allowed with anyOf := anyOf }
      second := .of_inverts conditionalPart inverts_readBool
        fun allowed conditional => { allowed with conditional := conditional }
      name_ne := by simp [anyOfPart, conditionalPart]
      setFirst_make := fun _ _ _ => rfl
      setSecond_make := fun _ _ _ => rfl }
  exact h.readAll_eq_ok_iff

theorem ofJson_of_isSpelledBy {text : String} {value : Value} {anyOf conditional : Bool}
    (hs : value.IsSpelledBy text)
    (h : value.GivesPair anyOfPart conditionalPart anyOf conditional) :
    ofJson text = .ok ⟨anyOf, conditional⟩ :=
  ofJson_eq_ok_iff.mpr ⟨value, anyOf, conditional, hs.lex_eq, h, rfl⟩

end AllowedOperators

theorem MetadataKey.ofJson_eq_ok_iff {text : String} {key : MetadataKey} :
    MetadataKey.ofJson text = .ok key ↔
      lex text = (Value.text (some key.name)).lexemes ∨
        lex text = (Value.object [(some key.name, .word .null)]).lexemes := by
  rw [MetadataKey.ofJson, readAll_eq_ok_iff, readName_eq_ok_iff]
  simp only [List.append_nil]
  constructor
  · rintro ⟨name, hn, hl⟩
    rwa [name_of_ofName? hn]
  · intro hl
    exact ⟨key.name, key.ofName?_name, hl⟩

end DepSpec
