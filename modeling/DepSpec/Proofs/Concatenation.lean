import DepSpec.Proofs.FaultAttribution
import DepSpec.Proofs.FlatForm

/-! Reading one text after another. What an earlier reader has put at the top and which values its
terms have is never looked at again, so a reader behind it takes the same steps and has the same
faults as it has alone. Where a text is complete, reading goes on behind its specification. -/

namespace DepSpec

variable {α β : Type}

theorem Item.mapAll_eq_map (f : α → β) (items : List (Item α)) :
    Item.mapAll f items = items.map (Item.map f) := by
  induction items with
  | nil => rfl
  | cons item items ih => rw [Item.mapAll, ih, List.map_cons]

theorem Item.map_group (f : α → β) (head : Head) (members : List (Item α)) :
    (Item.group head members).map f = .group head (members.map (Item.map f)) := by
  rw [Item.map, Item.mapAll_eq_map]

def OpenGroup.map (f : α → β) (group : OpenGroup α) : OpenGroup β :=
  ⟨group.head, group.openedBy, group.members.map (Item.map f)⟩

namespace Reader

/-- The reader with its terms replaced, behind what an earlier one has read. -/
def behind (reader : Reader α) (earlier : Reader β) (f : α → β) : Reader β where
  items := reader.items.map (Item.map f) ++ earlier.items
  groups := reader.groups.map (OpenGroup.map f)
  operator := reader.operator
  conditional := earlier.conditional || reader.conditional
  shown := reader.shown ++ earlier.shown

end Reader

def Outcome.behind (outcome : Outcome ParseFault α) (earlier : Reader β) (f : α → β) :
    Outcome ParseFault β where
  result := outcome.result.map fun spec =>
    ⟨earlier.items.reverse ++ (spec.map f).items, earlier.conditional || spec.conditional⟩
  shown := earlier.shown.reverse ++ outcome.shown

namespace Reader

variable {allowed : AllowedOperators} {readTerm : String → Except String α} {reader : Reader α}

theorem behind_place (reader : Reader α) (earlier : Reader β) (f : α → β) (item : Item α) :
    (reader.behind earlier f).place (item.map f) = (reader.place item).behind earlier f := by
  obtain ⟨items, _ | ⟨group, groups⟩, operator, conditional, shown⟩ := reader <;> rfl

theorem Step.behind {next : Reader α} {word : String} (earlier : Reader β) (f : α → β)
    (h : Step allowed readTerm reader word next) :
    Step allowed (fun word => (readTerm word).map f) (reader.behind earlier f) word
      (next.behind earlier f) := by
  cases h with
  | openPlain ho => exact .openPlain ho
  | openAwaited ho => exact .openAwaited ho
  | await ho hi => exact .await ho hi
  | @close group groups ho hg hne =>
    have hg' : (reader.behind earlier f).groups =
        group.map f :: groups.map (OpenGroup.map f) := by simp [Reader.behind, hg]
    have hne' : (group.map f).members ≠ [] := by simpa [OpenGroup.map] using hne
    have hs : Step allowed (fun word => (readTerm word).map f) (reader.behind earlier f) ")" _ :=
      .close ho hg' hne'
    rw [← behind_place, Item.map_group, List.map_reverse]
    simpa [Reader.behind, OpenGroup.map, Bool.or_assoc] using hs
  | @term _ value ho ht hr =>
    have hr' : (readTerm word).map f = .ok (f value) := by rw [hr]; rfl
    rw [← behind_place]
    exact .term ho ht hr'

theorem Refuses.behind {word : String} {fault : ParseFault} (earlier : Reader β) (f : α → β)
    (h : Refuses allowed readTerm reader word fault) :
    Refuses allowed (fun word => (readTerm word).map f) (reader.behind earlier f) word fault := by
  cases h with
  | unopened ho hw => exact .unopened ho hw
  | noGroup ho hg => exact .noGroup ho (by simp [Reader.behind, hg])
  | @noMember group groups ho hg hm =>
    have hg' : (reader.behind earlier f).groups =
        group.map f :: groups.map (OpenGroup.map f) := by simp [Reader.behind, hg]
    have hr : Refuses allowed (fun word => (readTerm word).map f) (reader.behind earlier f) ")" _ :=
      .noMember ho hg' (by simp [OpenGroup.map, hm])
    exact hr
  | forbidden ho hw => exact .forbidden ho hw
  | malformed ho hw => exact .malformed ho hw
  | rejected ho ht hr => exact .rejected ho ht (by rw [hr]; rfl)

theorem outcome_behind_error (reader : Reader α) (earlier : Reader β) (f : α → β)
    (fault : ParseFault) :
    (reader.behind earlier f).outcome (.error fault) =
      (reader.outcome (.error fault)).behind earlier f := by
  simp [outcome, Outcome.behind, Reader.behind, Except.map]

theorem outcome_behind_finish (reader : Reader α) (earlier : Reader β) (f : α → β) :
    (reader.behind earlier f).outcome (reader.behind earlier f).finish =
      (reader.outcome reader.finish).behind earlier f := by
  obtain ⟨items, _ | ⟨group, groups⟩, _ | awaited, conditional, shown⟩ := reader
  · simp [outcome, finish, Outcome.behind, Reader.behind, Except.map, Spec.map_eq,
      Item.mapAll_eq_map]
  all_goals
    exact outcome_behind_error _ earlier f _

/-- Reading goes on behind an earlier reader as it would alone. -/
theorem run_behind (reader : Reader α) (earlier : Reader β) (f : α → β) (words : List String) :
    (reader.behind earlier f).run allowed (fun word => (readTerm word).map f) words =
      (reader.run allowed readTerm words).behind earlier f := by
  induction words generalizing reader with
  | nil => exact outcome_behind_finish reader earlier f
  | cons word words ih =>
    cases h : reader.readWord allowed readTerm word with
    | ok next =>
      have hs := readWord_eq_ok_iff.mp h
      rw [hs.run_eq, (hs.behind earlier f).run_eq, ih]
    | error fault =>
      have hr := readWord_eq_error_iff.mp h
      rw [hr.run_eq, (hr.behind earlier f).run_eq, outcome_behind_error]

/-- At the end of a complete text nothing is open, as at the start. -/
theorem eq_start_behind {spec : Spec α} (h : reader.finish = .ok spec) :
    reader = start.behind reader id := by
  obtain ⟨ho, hg, -⟩ := finish_eq_ok_iff.mp h
  obtain ⟨items, groups, operator, conditional, shown⟩ := reader
  simp_all [behind, start]

theorem run_start_append {spec : Spec α} {us : List String}
    (h : (start.run allowed readTerm us).result = .ok spec) (vs : List String) :
    ∃ reader, reader.finish = .ok spec ∧
      (start.run allowed readTerm us).shown = reader.shown.reverse ∧
      start.run allowed readTerm (us ++ vs) =
        (start.run allowed readTerm vs).behind reader id := by
  rw [run_result] at h
  obtain ⟨reader, hr, hf⟩ := bind_eq_ok_iff.mp h
  have hshown := run_append hr []
  have hid : (fun word => (readTerm word).map id) = readTerm := by
    funext word
    cases readTerm word <;> rfl
  have hb : (start.behind reader id).run allowed (fun word => (readTerm word).map id) vs =
      (start.run allowed readTerm vs).behind reader id := run_behind start reader id vs
  rw [hid, ← eq_start_behind hf] at hb
  refine ⟨reader, hf, ?_, (run_append hr vs).trans hb⟩
  rw [List.append_nil] at hshown
  rw [hshown, run_nil, hf]
  rfl

end Reader

variable {allowed : AllowedOperators} {readTerm : String → Except String α}

/-- With any reader of terms a text after a complete one is read as it is read alone. -/
theorem parse_append_space {first : String} {spec : Spec α}
    (h : (parse allowed readTerm first).result = .ok spec) (second : String) :
    parse allowed readTerm (first ++ " " ++ second) =
      ⟨((parse allowed readTerm second).result.map fun next =>
          ⟨spec.items ++ next.items, spec.conditional || next.conditional⟩).mapError
            fun error => ⟨first ++ " " ++ second, error.fault⟩,
        (parse allowed readTerm first).shown ++ (parse allowed readTerm second).shown⟩ := by
  obtain ⟨reader, hf, hshown, hrun⟩ :=
    Reader.run_start_append (parse_result_eq_ok_iff.mp h) (words second)
  obtain ⟨-, -, rfl⟩ := Reader.finish_eq_ok_iff.mp hf
  simp only [parse_eq]
  rw [words_append_space, hrun, hshown]
  cases hr : (Reader.start.run allowed readTerm (words second)).result with
  | ok next =>
    simp only [Outcome.behind, hr, Except.map, Spec.map_id]
    rfl
  | error fault =>
    simp only [Outcome.behind, hr, Except.map]
    rfl

/-- A text after a complete one is read if and only if it is read alone. Its items come after those
of the first, or it has the fault that it has alone, in the whole text. -/
theorem parseWords_append_space (allowed : AllowedOperators) (first second : String)
    (spec : Spec String) (h : parseWords allowed first = .ok spec) :
    ((∃ whole, parseWords allowed (first ++ " " ++ second) = .ok whole) ↔
        ∃ next, parseWords allowed second = .ok next) ∧
      (∀ next, parseWords allowed second = .ok next →
        parseWords allowed (first ++ " " ++ second) =
          .ok ⟨spec.items ++ next.items, spec.conditional || next.conditional⟩) ∧
      ∀ error, parseWords allowed second = .error error →
        parseWords allowed (first ++ " " ++ second) =
          .error ⟨first ++ " " ++ second, error.fault⟩ := by
  have hw := congrArg Outcome.result (parse_append_space h second)
  change parseWords allowed (first ++ " " ++ second) =
    ((parseWords allowed second).map _).mapError _ at hw
  rw [hw]
  cases parseWords allowed second with
  | ok next =>
    refine ⟨iff_of_true ⟨_, rfl⟩ ⟨next, rfl⟩, fun found hn => ?_, fun error he => ?_⟩
    · obtain rfl := Except.ok.inj hn
      rfl
    · cases he
  | error error =>
    refine ⟨iff_of_false ?_ ?_, fun found hn => ?_, fun found he => ?_⟩
    · rintro ⟨whole, h⟩
      cases h
    · rintro ⟨next, h⟩
      cases h
    · cases hn
    · obtain rfl := Except.error.inj he
      rfl

theorem parseWords_append_space_unbalanced :
    parseWords .default "|| ( a )" = .ok ⟨[.group .anyOf [.term "a"]], false⟩ ∧
      parseWords .default "|| ( a ) x? ( b ) c" =
        .ok ⟨[.group .anyOf [.term "a"], .group (.when ⟨"x", false⟩) [.term "b"], .term "c"],
          true⟩ ∧
      parseWords .default "|| ( a ) b ) c" =
        .error ⟨"|| ( a ) b ) c", .grammar .unbalanced (some ")")⟩ := by
  have hf : parseWords .default "|| ( a )" = .ok ⟨[.group .anyOf [.term "a"]], false⟩ := rfl
  obtain ⟨-, hok, -⟩ := parseWords_append_space .default "|| ( a )" "x? ( b ) c" _ hf
  obtain ⟨-, -, herror⟩ := parseWords_append_space .default "|| ( a )" "b ) c" _ hf
  exact ⟨hf, hok _ rfl, herror _ rfl⟩

end DepSpec
