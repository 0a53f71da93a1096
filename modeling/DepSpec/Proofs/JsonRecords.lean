import DepSpec.Proofs.JsonReading

/-! Records are read from objects or lists. Of an object every field is given at most once, in any
order, any other member counts for nothing, and a field that is not given stays as it was. -/

namespace DepSpec.Json

variable {ρ : Type} {lexemes rest : List Lexeme}

/-- The record after a field was given a value, if the field can have this value. -/
def RecordField.set? (field : RecordField ρ) (record : ρ) (value : Value) : Option ρ :=
  match field.read record value.lexemes with
  | .ok (next, []) => some next
  | _ => none

theorem RecordField.set?_eq_some_iff {field : RecordField ρ} {record next : ρ} {value : Value} :
    field.set? record value = some next ↔ field.read record value.lexemes = .ok (next, []) := by
  unfold set?
  split
  · simp_all
  · next h =>
    simp only [reduceCtorEq, false_iff]
    exact h next

/-- The record after a member of an object was set; the value of a key that names no field is left
aside. -/
def setMember (fields : List (RecordField ρ)) (key : String) (record : ρ) (value : Value) :
    Option ρ :=
  match fields.find? fun field => field.name == key with
  | some field => field.set? record value
  | none => some record

def setMembers (fields : List (RecordField ρ)) :
    List String → List (Option String × Value) → ρ → Option ρ
  | _, [], record => some record
  | _, (none, _) :: _, _ => none
  | seen, (some key, value) :: members, record =>
    if isRepeated fields seen key then none
    else (setMember fields key record value).bind (setMembers fields (key :: seen) members)

/-- The record after the first fields were given the values of a list. -/
def setEntries : List (RecordField ρ) → List Value → ρ → Option ρ
  | _, [], record => some record
  | [], _ :: _, _ => none
  | field :: fields, value :: values, record =>
    (field.set? record value).bind (setEntries fields values)

def Value.toRecord? (fields : List (RecordField ρ)) (record : ρ) : Value → Option ρ
  | .list values => setEntries fields values record
  | .object members => setMembers fields [] members record
  | _ => none

section Members

variable {fields : List (RecordField ρ)} {limit : Nat} {seen : List String} {key : String}
  {record next last : ρ}

theorem setMembers_cons_eq_some_iff {value : Value} {members : List (Option String × Value)} :
    setMembers fields seen ((some key, value) :: members) record = some last ↔
      isRepeated fields seen key = false ∧ ∃ next, setMember fields key record value = some next ∧
        setMembers fields (key :: seen) members next = some last := by
  rw [setMembers]
  cases isRepeated fields seen key with
  | true => simp
  | false => simp [Option.bind_eq_some_iff]

theorem readNewKey_eq_ok_iff :
    readNewKey fields seen lexemes = .ok (key, rest) ↔
      isRepeated fields seen key = false ∧ lexemes = .text (some key) :: .mark ':' :: rest := by
  simp only [readNewKey, Reads.bind_eq_ok_iff, readKey_eq_ok_iff]
  constructor
  · rintro ⟨found, behind, rfl, hr⟩
    by_cases hs : isRepeated fields seen found = true
    · simp [hs] at hr
    · rw [if_neg hs] at hr
      obtain ⟨_, _, hm, hr⟩ := Reads.bind_eq_ok_iff.mp hr
      obtain ⟨rfl, rfl⟩ := Reads.pure_eq_ok_iff.mp hr
      rw [readMark_eq_ok_iff] at hm
      exact ⟨eq_false_of_ne_true hs, by rw [hm]⟩
  · rintro ⟨hs, rfl⟩
    refine ⟨key, _, rfl, ?_⟩
    rw [if_neg (ne_true_of_eq_false hs), Reads.bind_eq_ok_iff]
    exact ⟨(), rest, readMark_eq_ok_iff.mpr rfl, Reads.pure_eq_ok_iff.mpr ⟨rfl, rfl⟩⟩

theorem readMember_eq_ok_iff (hf : ∀ field ∈ fields, ∀ record, TakesValue (field.read record)) :
    readMember fields key record lexemes = .ok (next, rest) ↔
      ∃ value : Value, lexemes = value.lexemes ++ rest ∧
        setMember fields key record value = some next := by
  simp only [readMember, setMember]
  cases hk : fields.find? fun field => field.name == key with
  | none =>
    simp only [Reads.bind_eq_ok_iff, Reads.pure_eq_ok_iff, Option.some.injEq]
    constructor
    · rintro ⟨_, _, hs, rfl, rfl⟩
      obtain ⟨value, rfl⟩ := skipValue_eq_ok_iff.mp hs
      exact ⟨value, rfl, rfl⟩
    · rintro ⟨value, rfl, rfl⟩
      exact ⟨(), rest, skipValue_eq_ok_iff.mpr ⟨value, rfl⟩, rfl, rfl⟩
  | some field =>
    simp only [RecordField.set?_eq_some_iff]
    exact @hf field (List.mem_of_find?_eq_some hk) record lexemes rest next

theorem readMoreMembers_eq_ok_iff {more : Reads ρ} :
    readMoreMembers record more lexemes = .ok (last, rest) ↔
      lexemes = .mark '\x7d' :: rest ∧ record = last ∨
        ∃ later, lexemes = .mark ',' :: later ∧ more later = .ok (last, rest) := by
  simp only [readMoreMembers, Reads.bind_eq_ok_iff, next_eq_ok_iff]
  constructor
  · rintro ⟨found, later, rfl, hr⟩
    by_cases hc : found = .mark '\x7d'
    · rw [if_pos hc, Reads.pure_eq_ok_iff] at hr
      exact .inl ⟨by rw [hc, hr.2], hr.1⟩
    · rw [if_neg hc] at hr
      by_cases hm : found = .mark ','
      · rw [if_pos hm] at hr
        exact .inr ⟨later, by rw [hm], hr⟩
      · simp [hm] at hr
  · rintro (⟨rfl, rfl⟩ | ⟨later, rfl, hr⟩)
    · exact ⟨_, _, rfl, by simp⟩
    · exact ⟨_, _, rfl, by simpa using hr⟩

/-- Of at most so many lexemes a record is read as their members set it. The members to come are
those after the comma that `laterMembers` begins with. -/
def SetsMembers (fields : List (RecordField ρ)) (limit : Nat) : Prop :=
  ∀ ⦃lexemes rest : List Lexeme⦄ ⦃seen : List String⦄ ⦃record last : ρ⦄,
    lexemes.length ≤ limit →
      (readMembers fields limit seen record lexemes = .ok (last, rest) ↔
        ∃ members, .mark ',' :: lexemes = laterMembers members ++ .mark '\x7d' :: rest ∧
          setMembers fields seen members record = some last)

theorem SetsMembers.more (h : SetsMembers fields limit) (hl : lexemes.length ≤ limit + 1) :
    readMoreMembers record (readMembers fields limit seen record) lexemes = .ok (last, rest) ↔
      ∃ members, lexemes = laterMembers members ++ .mark '\x7d' :: rest ∧
        setMembers fields seen members record = some last := by
  rw [readMoreMembers_eq_ok_iff]
  constructor
  · rintro (⟨rfl, rfl⟩ | ⟨later, rfl, hr⟩)
    · exact ⟨[], rfl, rfl⟩
    · exact (h (by simpa using hl)).mp hr
  · rintro ⟨members, rfl, hm⟩
    cases members with
    | nil => exact .inl ⟨rfl, Option.some.inj hm⟩
    | cons member members =>
      rw [laterMembers, List.cons_append] at hl ⊢
      exact .inr ⟨_, rfl, (h (by simpa using hl)).mpr ⟨member :: members, rfl, hm⟩⟩

theorem setsMembers (hf : ∀ field ∈ fields, ∀ record, TakesValue (field.read record))
    (limit : Nat) : SetsMembers fields limit := by
  induction limit with
  | zero =>
    intro lexemes rest seen record last hl
    obtain rfl := List.eq_nil_of_length_eq_zero (Nat.le_zero.mp hl)
    have hn : ∀ members, [.mark ','] ≠ laterMembers members ++ .mark '\x7d' :: rest := by
      intro members h
      cases members <;> simp [laterMembers] at h
    simp [readMembers, hn]
  | succ limit ih =>
    intro lexemes rest seen record last hl
    simp only [readMembers, Reads.bind_eq_ok_iff, readNewKey_eq_ok_iff, readMember_eq_ok_iff hf]
    constructor
    · rintro ⟨key, _, ⟨hk, rfl⟩, next, behind, ⟨value, rfl, hset⟩, hmore⟩
      simp only [List.length_cons, List.length_append] at hl
      obtain ⟨members, rfl, hm⟩ := (ih.more (by omega)).mp hmore
      exact ⟨(some key, value) :: members, by simp [laterMembers],
        setMembers_cons_eq_some_iff.mpr ⟨hk, next, hset, hm⟩⟩
    · rintro ⟨members, he, hm⟩
      cases members with
      | nil => simp [laterMembers] at he
      | cons member members =>
        obtain ⟨key?, value⟩ := member
        simp only [laterMembers, List.cons_append, List.append_assoc, List.cons.injEq,
          true_and] at he
        subst he
        cases key? with
        | none => simp [setMembers] at hm
        | some key =>
          obtain ⟨hk, next, hset, hm⟩ := setMembers_cons_eq_some_iff.mp hm
          simp only [List.length_cons, List.length_append] at hl
          have hb : (laterMembers members ++ .mark '\x7d' :: rest).length ≤ limit + 1 := by
            rw [List.length_append, List.length_cons]
            omega
          have hmore := (ih.more hb).mpr ⟨members, rfl, hm⟩
          exact ⟨key, _, ⟨hk, rfl⟩, next, _, ⟨value, rfl, hset⟩, hmore⟩

theorem readObject_eq_ok_iff (hf : ∀ field ∈ fields, ∀ record, TakesValue (field.read record)) :
    readObject fields record lexemes = .ok (last, rest) ↔
      ∃ members, lexemes = (laterMembers members).tail ++ .mark '\x7d' :: rest ∧
        setMembers fields [] members record = some last := by
  have hm := setsMembers hf lexemes.length
  simp only [readObject, Reads.bind_eq_ok_iff, peek_eq_ok_iff]
  constructor
  · rintro ⟨first, _, ⟨rfl, hp⟩, hr⟩
    by_cases hc : first = .mark '\x7d'
    · simp only [hc, if_true, Reads.bind_eq_ok_iff, next_eq_ok_iff, Reads.pure_eq_ok_iff] at hr
      obtain ⟨_, _, rfl, rfl, rfl⟩ := hr
      obtain rfl := Option.some.inj hp
      exact ⟨[], by simp [hc, laterMembers], rfl⟩
    · simp only [hc, if_false, Reads.bind_eq_ok_iff, Reads.get_eq_ok_iff] at hr
      obtain ⟨_, _, ⟨rfl, rfl⟩, hr⟩ := hr
      obtain ⟨members, hl, hs⟩ := (hm (Nat.le_refl _)).mp hr
      cases members with
      | nil => simp [laterMembers] at hl
      | cons member members => exact ⟨member :: members, congrArg List.tail hl, hs⟩
  · rintro ⟨members, rfl, hs⟩
    cases members with
    | nil =>
      obtain rfl := Option.some.inj hs
      exact ⟨.mark '\x7d', _, ⟨rfl, rfl⟩, rfl⟩
    | cons member members =>
      have hr := (hm (Nat.le_refl _)).mpr ⟨member :: members, rfl, hs⟩
      refine ⟨.text member.1, _, ⟨rfl, rfl⟩, ?_⟩
      rw [if_neg (by simp), Reads.bind_eq_ok_iff]
      exact ⟨_, _, Reads.get_eq_ok_iff.mpr ⟨rfl, rfl⟩, hr⟩

end Members

section Entries

variable {field : RecordField ρ} {fields : List (RecordField ρ)} {record last : ρ}

/-- The entries to come are written as those of a list after its first. -/
def SetsEntries (fields : List (RecordField ρ)) : Prop :=
  ∀ ⦃lexemes rest : List Lexeme⦄ ⦃record last : ρ⦄,
    readElements false fields record lexemes = .ok (last, rest) ↔
      ∃ values, lexemes = laterEntries values ++ .mark ']' :: rest ∧
        setEntries fields values record = some last

theorem SetsEntries.entry (h : SetsEntries fields) (hf : TakesValue (field.read record)) :
    (field.read record >>= readElements false fields) lexemes = .ok (last, rest) ↔
      ∃ value values, lexemes = value.lexemes ++ (laterEntries values ++ .mark ']' :: rest) ∧
        setEntries (field :: fields) (value :: values) record = some last := by
  rw [Reads.bind_eq_ok_iff]
  constructor
  · rintro ⟨next, behind, hv, hr⟩
    obtain ⟨value, rfl, hset⟩ := hf.mp hv
    obtain ⟨values, rfl, hl⟩ := h.mp hr
    refine ⟨value, values, rfl, ?_⟩
    rw [setEntries, RecordField.set?_eq_some_iff.mpr hset]
    exact hl
  · rintro ⟨value, values, rfl, hl⟩
    obtain ⟨next, hset, hl⟩ := Option.bind_eq_some_iff.mp hl
    exact ⟨next, _, hf.mpr ⟨value, rfl, RecordField.set?_eq_some_iff.mp hset⟩,
      h.mpr ⟨values, rfl, hl⟩⟩

theorem SetsEntries.cons (h : SetsEntries fields) (hf : TakesValue (field.read record))
    (isFirst : Bool) :
    readElements isFirst (field :: fields) record lexemes = .ok (last, rest) ↔
      ∃ values, lexemes =
          (if isFirst then (laterEntries values).tail else laterEntries values) ++
            .mark ']' :: rest ∧
        setEntries (field :: fields) values record = some last := by
  rw [readElements, Reads.bind_eq_ok_iff]
  simp only [peek_eq_ok_iff]
  constructor
  · rintro ⟨found, _, ⟨rfl, hp⟩, hr⟩
    by_cases hc : found = .mark ']'
    · simp only [hc, if_true, Reads.bind_eq_ok_iff, next_eq_ok_iff, Reads.pure_eq_ok_iff] at hr
      obtain ⟨_, _, rfl, rfl, rfl⟩ := hr
      obtain rfl := Option.some.inj hp
      exact ⟨[], by simp [hc, laterEntries], rfl⟩
    · rw [if_neg hc] at hr
      cases isFirst with
      | true =>
        obtain ⟨value, values, rfl, hl⟩ := (h.entry hf).mp hr
        exact ⟨value :: values, by simp [laterEntries], hl⟩
      | false =>
        obtain ⟨_, behind, hm, hr⟩ := Reads.bind_eq_ok_iff.mp hr
        obtain ⟨value, values, rfl, hl⟩ := (h.entry hf).mp hr
        rw [readMark_eq_ok_iff] at hm
        exact ⟨value :: values, by simp [hm, laterEntries], hl⟩
  · rintro ⟨values, rfl, hl⟩
    cases values with
    | nil =>
      obtain rfl := Option.some.inj hl
      cases isFirst <;> exact ⟨.mark ']', _, ⟨rfl, rfl⟩, rfl⟩
    | cons value values =>
      have hentry : (field.read record >>= readElements false fields)
          (value.lexemes ++ (laterEntries values ++ .mark ']' :: rest)) = .ok (last, rest) :=
        (h.entry hf).mpr ⟨value, values, rfl, hl⟩
      cases isFirst with
      | true =>
        obtain ⟨first, others, hv, hb⟩ := value.exists_lexemes_eq_cons
        have hc : first ≠ .mark ']' := by
          rintro rfl
          cases hb
        refine ⟨first, _, ⟨rfl, by simp [laterEntries, hv]⟩, ?_⟩
        rw [if_neg hc]
        simpa [laterEntries] using hentry
      | false =>
        refine ⟨.mark ',', _, ⟨rfl, rfl⟩, ?_⟩
        rw [if_neg (by simp)]
        refine Reads.bind_eq_ok_iff.mpr ⟨(), _, readMark_eq_ok_iff.mpr ?_, hentry⟩
        simp [laterEntries]

theorem readElements_eq_ok_iff
    (hf : ∀ field ∈ fields, ∀ record, TakesValue (field.read record)) (isFirst : Bool) :
    readElements isFirst fields record lexemes = .ok (last, rest) ↔
      ∃ values, lexemes =
          (if isFirst then (laterEntries values).tail else laterEntries values) ++
            .mark ']' :: rest ∧
        setEntries fields values record = some last := by
  induction fields generalizing lexemes rest record last isFirst with
  | nil =>
    simp only [readElements, Reads.bind_eq_ok_iff, readMark_eq_ok_iff, Reads.pure_eq_ok_iff]
    constructor
    · rintro ⟨_, _, rfl, rfl, rfl⟩
      exact ⟨[], by simp [laterEntries], rfl⟩
    · rintro ⟨values, rfl, hl⟩
      cases values with
      | nil => exact ⟨(), rest, by simp [laterEntries], Option.some.inj hl, rfl⟩
      | cons value values => cases hl
  | cons field fields ih =>
    have hs : SetsEntries fields :=
      fun _ _ _ _ => ih (fun other hm => hf other (by simp [hm])) false
    exact hs.cons (hf field (by simp) record) isFirst

end Entries

/-- What a record is read from is a value, and the record is what this value sets. -/
theorem readRecord_eq_ok_iff {fields : List (RecordField ρ)} {record last : ρ}
    (hf : ∀ field ∈ fields, ∀ record, TakesValue (field.read record)) :
    readRecord fields record lexemes = .ok (last, rest) ↔
      ∃ value : Value, lexemes = value.lexemes ++ rest ∧
        value.toRecord? fields record = some last := by
  rw [readRecord, Reads.bind_eq_ok_iff]
  simp only [next_eq_ok_iff]
  constructor
  · rintro ⟨found, after, rfl, hr⟩
    by_cases hl : found = .mark '['
    · rw [if_pos hl] at hr
      obtain ⟨values, rfl, hs⟩ := (readElements_eq_ok_iff hf true).mp hr
      exact ⟨.list values, by simp [hl, Value.lexemes], hs⟩
    · rw [if_neg hl] at hr
      by_cases ho : found = .mark '\x7b'
      · rw [if_pos ho] at hr
        obtain ⟨members, rfl, hs⟩ := (readObject_eq_ok_iff hf).mp hr
        exact ⟨.object members, by simp [ho, Value.lexemes], hs⟩
      · simp [ho] at hr
  · rintro ⟨value, rfl, hv⟩
    cases value with
    | word | text | number => cases hv
    | list values =>
      refine ⟨_, _, rfl, ?_⟩
      rw [if_pos rfl]
      exact (readElements_eq_ok_iff hf true).mpr ⟨values, by simp, hv⟩
    | object members =>
      refine ⟨_, _, rfl, ?_⟩
      rw [if_neg (by simp), if_pos rfl]
      exact (readObject_eq_ok_iff hf).mpr ⟨members, by simp, hv⟩

theorem readAll_readRecord_eq_ok_iff {fields : List (RecordField ρ)} {record last : ρ}
    {text : String} (hf : ∀ field ∈ fields, ∀ record, TakesValue (field.read record)) :
    readAll (readRecord fields record) text = .ok last ↔
      ∃ value : Value, lex text = value.lexemes ∧ value.toRecord? fields record = some last := by
  rw [readAll_eq_ok_iff, readRecord_eq_ok_iff hf]
  simp only [List.append_nil]

end DepSpec.Json
