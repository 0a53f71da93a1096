import DepSpec.JsonRecord

/-! JSON values as trees, and the lexemes that they are written with. Nothing else is written with
these lexemes, whatever follows them. -/

namespace DepSpec.Json

inductive Value where
  | word (word : Word)
  | text (value : Option String)
  | number (finite : Bool)
  | list (entries : List Value)
  | object (members : List (Option String × Value))

mutual

def Value.lexemes : Value → List Lexeme
  | .word word => [.word word]
  | .text value => [.text value]
  | .number finite => [.number finite]
  | .list entries => .mark '[' :: ((laterEntries entries).tail ++ [.mark ']'])
  | .object members => .mark '\x7b' :: ((laterMembers members).tail ++ [.mark '\x7d'])

/-- Entries of a list that are not the first. -/
def laterEntries : List Value → List Lexeme
  | [] => []
  | entry :: entries => .mark ',' :: (entry.lexemes ++ laterEntries entries)

/-- Members of an object that are not the first. -/
def laterMembers : List (Option String × Value) → List Lexeme
  | [] => []
  | (key, value) :: members =>
    .mark ',' :: .text key :: .mark ':' :: (value.lexemes ++ laterMembers members)

end

theorem lexemes_list_nil (rest : List Lexeme) :
    (Value.list []).lexemes ++ rest = .mark '[' :: .mark ']' :: rest := rfl

theorem lexemes_list_cons (entry : Value) (entries : List Value) (rest : List Lexeme) :
    (Value.list (entry :: entries)).lexemes ++ rest =
      .mark '[' :: (entry.lexemes ++ (laterEntries entries ++ .mark ']' :: rest)) := by
  simp [Value.lexemes, laterEntries]

theorem lexemes_object_cons (key : Option String) (value : Value)
    (members : List (Option String × Value)) (rest : List Lexeme) :
    (Value.object ((key, value) :: members)).lexemes ++ rest =
      .mark '\x7b' :: .text key :: .mark ':' ::
        (value.lexemes ++ (laterMembers members ++ .mark '\x7d' :: rest)) := by
  simp [Value.lexemes, laterMembers]

/-- The lexemes with which a value can begin. -/
def Lexeme.beginsValue : Lexeme → Bool
  | .word _ | .text _ | .number _ => true
  | .mark c => c == '[' || c == '\x7b'
  | _ => false

theorem Value.exists_lexemes_eq_cons (value : Value) :
    ∃ first others, value.lexemes = first :: others ∧ first.beginsValue = true := by
  cases value <;> exact ⟨_, _, rfl, rfl⟩

theorem laterEntries_append_of_tail {entries others : List Value} {rest after : List Lexeme}
    (h : (laterEntries entries).tail ++ .mark ']' :: rest =
      (laterEntries others).tail ++ .mark ']' :: after) :
    laterEntries entries ++ .mark ']' :: rest = laterEntries others ++ .mark ']' :: after := by
  cases entries with
  | nil =>
    cases others with
    | nil => exact h
    | cons other others =>
      obtain ⟨first, later, hv, hb⟩ := other.exists_lexemes_eq_cons
      obtain ⟨rfl, -⟩ := List.cons.inj (by simpa [laterEntries, hv] using h)
      cases hb
  | cons entry entries =>
    cases others with
    | nil =>
      obtain ⟨first, later, hv, hb⟩ := entry.exists_lexemes_eq_cons
      obtain ⟨rfl, -⟩ := List.cons.inj (by simpa [laterEntries, hv] using h)
      cases hb
    | cons other others => exact congrArg (.mark ',' :: ·) h

theorem laterMembers_append_of_tail {members others : List (Option String × Value)}
    {rest after : List Lexeme}
    (h : (laterMembers members).tail ++ .mark '\x7d' :: rest =
      (laterMembers others).tail ++ .mark '\x7d' :: after) :
    laterMembers members ++ .mark '\x7d' :: rest =
      laterMembers others ++ .mark '\x7d' :: after := by
  cases members with
  | nil =>
    cases others with
    | nil => exact h
    | cons other others => simp [laterMembers] at h
  | cons member members =>
    cases others with
    | nil => simp [laterMembers] at h
    | cons other others => exact congrArg (.mark ',' :: ·) h

mutual

theorem Value.lexemes_append_inj (value other : Value) {rest after : List Lexeme}
    (h : value.lexemes ++ rest = other.lexemes ++ after) : value = other ∧ rest = after := by
  match value with
  | .word _ | .text _ | .number _ =>
    cases other <;> simp_all [Value.lexemes]
  | .list entries =>
    cases other with
    | list others =>
      have ht := laterEntries_append_of_tail (by simpa [Value.lexemes] using h)
      have hi := laterEntries_append_inj entries others ht
      exact ⟨congrArg _ hi.1, hi.2⟩
    | _ => simp [Value.lexemes] at h
  | .object members =>
    cases other with
    | object others =>
      have ht := laterMembers_append_of_tail (by simpa [Value.lexemes] using h)
      have hi := laterMembers_append_inj members others ht
      exact ⟨congrArg _ hi.1, hi.2⟩
    | _ => simp [Value.lexemes] at h

theorem laterEntries_append_inj (entries others : List Value) {rest after : List Lexeme}
    (h : laterEntries entries ++ .mark ']' :: rest =
      laterEntries others ++ .mark ']' :: after) : entries = others ∧ rest = after := by
  match entries, others with
  | [], [] => simpa [laterEntries] using h
  | [], _ :: _ | _ :: _, [] => simp [laterEntries] at h
  | entry :: entries, other :: others =>
    simp only [laterEntries, List.cons_append, List.append_assoc] at h
    have hv := entry.lexemes_append_inj other (List.cons.inj h).2
    have hi := laterEntries_append_inj entries others hv.2
    rw [hv.1, hi.1]
    exact ⟨rfl, hi.2⟩

theorem laterMembers_append_inj (members others : List (Option String × Value))
    {rest after : List Lexeme}
    (h : laterMembers members ++ .mark '\x7d' :: rest =
      laterMembers others ++ .mark '\x7d' :: after) : members = others ∧ rest = after := by
  match members, others with
  | [], [] => simpa [laterMembers] using h
  | [], (_, _) :: _ | (_, _) :: _, [] => simp [laterMembers] at h
  | (key, value) :: members, (otherKey, other) :: others =>
    simp only [laterMembers, List.cons_append, List.append_assoc, List.cons.injEq,
      Lexeme.text.injEq, true_and] at h
    have hv := value.lexemes_append_inj other h.2
    have hi := laterMembers_append_inj members others hv.2
    rw [h.1, hv.1, hi.1]
    exact ⟨rfl, hi.2⟩

end

theorem Value.lexemes_injective {value other : Value} (h : value.lexemes = other.lexemes) :
    value = other :=
  (value.lexemes_append_inj other (congrArg (· ++ []) h)).1

end DepSpec.Json
