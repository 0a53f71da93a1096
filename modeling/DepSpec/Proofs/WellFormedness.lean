import DepSpec.Proofs.EvaluatedText
import DepSpec.Session

/-! Whatever is read or made is well formed: no group is empty, and a specification is marked
exactly if a conditional occurs in it. Each step of a reader and of a session keeps this. -/

namespace DepSpec

variable {α : Type}

theorem testsOfItems_ne_nil_iff {items : List (Item α)} :
    testsOfItems items ≠ [] ↔ ∃ item ∈ items, item.tests ≠ [] := by
  induction items with
  | nil => simp [testsOfItems]
  | cons item items ih =>
    rw [testsOfItems, Ne, List.append_eq_nil_iff, Classical.not_and_iff_not_or_not, ← Ne, ← Ne, ih]
    simp

theorem Item.tests_group_ne_nil_iff {head : Head} {members : List (Item α)} :
    (Item.group head members).tests ≠ [] ↔
      head.test?.isSome = true ∨ ∃ item ∈ members, item.tests ≠ [] := by
  rw [Item.tests, ← testsOfItems_ne_nil_iff]
  cases head.test? <;> simp

theorem Spec.wellFormed_iff {spec : Spec α} :
    spec.WellFormed ↔ (∀ item ∈ spec.items, item.WellFormed) ∧
      (spec.conditional = true ↔ ∃ item ∈ spec.items, item.tests ≠ []) := by
  rw [WellFormed, wellFormedItems_iff, ← testsOfItems_ne_nil_iff]
  refine and_congr_right fun _ => ?_
  cases testsOfItems spec.items <;> cases spec.conditional <;> simp

namespace Reader

/-- The items read so far, those of open groups included. -/
def placed (reader : Reader α) : List (Item α) :=
  reader.items ++ reader.groups.flatMap OpenGroup.members

/-- The items read so far are well formed, and the mark tells of the conditionals among them. -/
structure WellFormed (reader : Reader α) : Prop where
  items : ∀ item ∈ reader.placed, item.WellFormed
  conditional : reader.conditional = true ↔ ∃ item ∈ reader.placed, item.tests ≠ []

theorem wellFormed_start : (start : Reader α).WellFormed :=
  ⟨by simp [placed, start], by simp [placed, start]⟩

theorem WellFormed.openGroup {reader : Reader α} (h : reader.WellFormed) (head : Head)
    (openedBy : String) : (reader.openGroup head openedBy).WellFormed := by
  have hp : (reader.openGroup head openedBy).placed = reader.placed := by
    simp [placed, Reader.openGroup]
  exact ⟨hp ▸ h.items, hp ▸ h.conditional⟩

theorem mem_placed_place {reader : Reader α} {item x : Item α} :
    x ∈ (reader.place item).placed ↔ x = item ∨ x ∈ reader.placed := by
  obtain ⟨items, _ | ⟨group, groups⟩, operator, conditional, shown⟩ := reader
  · simp [placed, place]
  · simp only [placed, place, List.flatMap_cons, List.mem_append, List.mem_cons]
    grind

theorem wellFormed_place_iff {reader : Reader α} {item : Item α} :
    (reader.place item).WellFormed ↔
      (item.WellFormed ∧ ∀ x ∈ reader.placed, x.WellFormed) ∧
        (reader.conditional = true ↔ item.tests ≠ [] ∨ ∃ x ∈ reader.placed, x.tests ≠ []) := by
  have hc : (reader.place item).conditional = reader.conditional := by
    unfold place
    split <;> rfl
  constructor
  · rintro ⟨hi, ht⟩
    simp only [mem_placed_place, forall_eq_or_imp, exists_eq_or_imp, hc] at hi ht
    exact ⟨hi, ht⟩
  · rintro ⟨hi, ht⟩
    refine ⟨?_, ?_⟩ <;> simpa only [mem_placed_place, forall_eq_or_imp, exists_eq_or_imp, hc]

variable {allowed : AllowedOperators} {readTerm : String → Except String α}

/-- Closing a group makes one item of its members, and marks the reader if that is conditional. -/
theorem WellFormed.step {reader next : Reader α} {word : String} (h : reader.WellFormed)
    (hs : Step allowed readTerm reader word next) : next.WellFormed := by
  cases hs with
  | openPlain ho => exact h.openGroup .allOf "("
  | openAwaited ho => exact h.openGroup _ _
  | await ho hi => exact ⟨h.items, h.conditional⟩
  | @close group groups ho hg hne =>
    -- the mark already tells of the members, so only the head of the group can change it
    have hp : ∀ x, x ∈ reader.placed ↔
        x ∈ group.members ∨ x ∈ reader.items ++ groups.flatMap OpenGroup.members := by
      intro x
      simp only [placed, hg, List.flatMap_cons, List.mem_append]
      grind
    obtain ⟨hi, hc⟩ := h
    simp only [hp, or_imp, forall_and] at hi
    simp only [hp, or_and_right, exists_or] at hc
    rw [wellFormed_place_iff, Item.tests_group_ne_nil_iff, Bool.or_eq_true, hc, or_comm, ← or_assoc]
    refine ⟨⟨⟨by simpa using hne, wellFormedItems_iff.mpr (by simpa using hi.1)⟩, hi.2⟩, ?_⟩
    simp [placed]
  | term ho ht hr =>
    rw [wellFormed_place_iff]
    exact ⟨⟨trivial, h.items⟩, by simpa [Item.tests, placed] using h.conditional⟩

theorem WellFormed.finish {reader : Reader α} {spec : Spec α} (h : reader.WellFormed)
    (hf : reader.finish = .ok spec) : spec.WellFormed := by
  obtain ⟨-, hg, rfl⟩ := finish_eq_ok_iff.mp hf
  have hp : reader.placed = reader.items := by simp [placed, hg]
  rw [Spec.wellFormed_iff]
  simpa [hp] using And.intro h.items h.conditional

theorem WellFormed.runRecalling {readTerm : List String → String → Except String α}
    {reader : Reader α} {words : List String} {spec : Spec α} (h : reader.WellFormed)
    (hr : (reader.runRecalling allowed readTerm words).result = .ok spec) : spec.WellFormed := by
  induction words generalizing reader with
  | nil =>
    rw [Reader.runRecalling] at hr
    cases hf : reader.finish with
    | ok found =>
      simp only [hf, outcome, Except.ok.injEq] at hr
      subst hr
      exact h.finish hf
    | error fault => simp [hf, outcome] at hr
  | cons word words ih =>
    rw [Reader.runRecalling] at hr
    cases hw : reader.readWord allowed (readTerm reader.shown.reverse) word with
    | ok next =>
      rw [hw] at hr
      exact ih (h.step (readWord_eq_ok_iff.mp hw)) hr
    | error fault => simp [hw, outcome] at hr

end Reader

theorem wellFormed_of_parseRecalling {allowed : AllowedOperators}
    {readTerm : List String → String → Except String α} {text : String} {spec : Spec α}
    (h : (parseRecalling allowed readTerm text).result = .ok spec) : spec.WellFormed := by
  have hp : (parseRecalling allowed readTerm text).result =
      (Reader.start.runRecalling allowed readTerm (words text)).result.mapError
        fun fault => ⟨text, fault⟩ := rfl
  rw [hp] at h
  cases hr : (Reader.start.runRecalling allowed readTerm (words text)).result with
  | ok found =>
    rw [hr] at h
    obtain rfl := Except.ok.inj h
    exact Reader.wellFormed_start.runRecalling hr
  | error fault =>
    rw [hr] at h
    cases h

theorem Spec.WellFormed.evaluate {spec : Spec α} (h : spec.WellFormed)
    (selection : FlagSelection) : (spec.evaluate selection).WellFormed := by
  by_cases hc : spec.conditional = true
  · exact wellFormed_evaluate hc selection
  · rwa [Spec.evaluate, if_neg hc]

namespace Session

structure WellFormed (session : Session α) : Prop where
  items : ∀ item ∈ session.items, item.WellFormed
  specs : ∀ spec ∈ session.specs, spec.WellFormed

theorem wellFormed_ofItems {items : List (Item α)} (h : ∀ item ∈ items, item.WellFormed) :
    (⟨items, []⟩ : Session α).WellFormed :=
  ⟨h, by simp⟩

theorem wellFormed_ofSpecs {specs : List (Spec α)} (h : ∀ spec ∈ specs, spec.WellFormed) :
    (⟨[], specs⟩ : Session α).WellFormed :=
  ⟨by simp, h⟩

variable {session : Session α}

theorem WellFormed.pick (h : session.WellFormed) (positions : List Nat) :
    WellFormedItems (session.pick positions) := by
  refine wellFormedItems_iff.mpr fun item hi => ?_
  obtain ⟨position, -, hp⟩ := List.mem_filterMap.mp hi
  exact h.items item (List.mem_of_getElem? hp)

theorem WellFormed.items_at (h : session.WellFormed) {position : Nat} {item : Item α}
    (hi : item ∈ session.items[position]?.toList) : item.WellFormed :=
  h.items item (List.mem_of_getElem? (Option.mem_toList.mp hi))

theorem WellFormed.specs_at (h : session.WellFormed) {position : Nat} {spec : Spec α}
    (hs : spec ∈ session.specs[position]?.toList) : spec.WellFormed :=
  h.specs spec (List.mem_of_getElem? (Option.mem_toList.mp hs))

theorem WellFormed.made (h : session.WellFormed) (operation : Operation α) :
    (session.made operation).WellFormed := by
  cases operation with
  | parse allowed readTerm text =>
    refine wellFormed_ofSpecs fun spec hs => ?_
    cases hr : (parseRecalling allowed readTerm text).result with
    | ok found =>
      obtain rfl : spec = found := by simpa [hr, Except.toOption] using hs
      exact wellFormed_of_parseRecalling hr
    | error fault => simp [hr, Except.toOption] at hs
  | empty => exact wellFormed_ofSpecs (by simpa using Spec.wellFormed_empty)
  | ofItems positions =>
    exact wellFormed_ofSpecs (by simpa using Spec.wellFormed_ofItems (h.pick positions))
  | evaluate selection position =>
    refine wellFormed_ofSpecs fun spec hs => ?_
    obtain ⟨found, hf, rfl⟩ := List.mem_map.mp hs
    exact (h.specs_at hf).evaluate selection
  | copySpec position =>
    refine wellFormed_ofSpecs fun spec hs => ?_
    obtain ⟨found, hf, rfl⟩ := List.mem_map.mp hs
    exact (h.specs_at hf).map id
  | itemsOf position =>
    refine wellFormed_ofItems fun item hi => ?_
    obtain ⟨spec, hs, hi⟩ := List.mem_flatMap.mp hi
    exact wellFormedItems_iff.mp (h.specs_at hs).1 item hi
  | term value => exact wellFormed_ofItems (by simp [Item.WellFormed])
  | allOf positions =>
    exact wellFormed_ofItems fun item hi =>
      Item.wellFormed_of_group? (h.pick positions) (Option.mem_toList.mp hi)
  | anyOf positions =>
    exact wellFormed_ofItems fun item hi =>
      Item.wellFormed_of_group? (h.pick positions) (Option.mem_toList.mp hi)
  | conditional guard positions =>
    exact wellFormed_ofItems fun item hi =>
      Item.wellFormed_of_conditional? (h.pick positions) (Option.mem_toList.mp hi)
  | copyItem position =>
    refine wellFormed_ofItems fun item hi => ?_
    rw [mapTerms_eq_mapAll, Item.mapAll_id] at hi
    exact h.items_at hi
  | membersOf position =>
    refine wellFormed_ofItems fun item hi => ?_
    obtain ⟨found, hf, hi⟩ := List.mem_flatMap.mp hi
    exact wellFormedItems_iff.mp (h.items_at hf).members item hi

theorem WellFormed.perform (h : session.WellFormed) (operation : Operation α) :
    (session.perform operation).WellFormed := by
  have hm := h.made operation
  constructor
  · intro item hi
    exact (List.mem_append.mp hi).elim (h.items item) (hm.items item)
  · intro spec hs
    exact (List.mem_append.mp hs).elim (h.specs spec) (hm.specs spec)

theorem WellFormed.foldl_perform (h : session.WellFormed) (operations : List (Operation α)) :
    (operations.foldl Session.perform session).WellFormed := by
  induction operations generalizing session with
  | nil => exact h
  | cons operation operations ih => exact ih (h.perform operation)

theorem wellFormed_run (operations : List (Operation α)) : (run operations).WellFormed :=
  WellFormed.foldl_perform ⟨by simp [start], by simp [start]⟩ operations

/-- However a session went on, no group in it is empty at any depth and every mark is right; what is
evaluated has no conditional left. A conditional is made of members and of a bare test alone: a
conjunction of tests never guards one. -/
theorem representation_run (operations : List (Operation α)) :
    (∀ item ∈ (run operations).items, item.WellFormed) ∧
      (∀ spec ∈ (run operations).specs,
        WellFormedItems spec.items ∧
          (spec.conditional = true ↔ ∃ test, test ∈ testsOfItems spec.items) ∧
          ∀ selection, (spec.evaluate selection).conditional = false ∧
            testsOfItems (spec.evaluate selection).items = []) ∧
      ∀ guard members (item : Item α), Item.conditional? guard members = some item ↔
        members ≠ [] ∧ ∃ test, guard = .test test ∧ item = .group (.when test) members := by
  have hw := wellFormed_run operations
  refine ⟨hw.items, fun spec hs => ?_, fun guard members item => Item.conditional?_eq_some_iff⟩
  have hm := hw.specs spec hs
  refine ⟨hm.1, ?_, fun selection => ?_⟩
  · rw [hm.2, Bool.not_eq_true', List.isEmpty_eq_false_iff_exists_mem]
  · have hc := Spec.conditional_evaluate selection spec
    exact ⟨hc, (hm.evaluate selection).testsOfItems_eq_nil hc⟩

/-- A conditional is read, taken out, and put into a group of another specification. -/
def regroupingRun : List (Operation String) :=
  [.parse .default (fun _ => .ok) "x? ( a ) b", .itemsOf 0, .anyOf [0, 1], .ofItems [2]]

theorem representation_regroupingRun :
    let item : Item String := .group .anyOf [.group (.when ⟨"x", false⟩) [.term "a"], .term "b"]
    item ∈ (run regroupingRun).items ∧ Spec.ofItems [item] ∈ (run regroupingRun).specs ∧
      item.WellFormed ∧ (Spec.ofItems [item]).conditional = true ∧
      testsOfItems ((Spec.ofItems [item]).evaluate ⟨["x"], none⟩).items = [] ∧
      Item.conditional? (.all [.test ⟨"x", false⟩]) [item] = none := by
  intro item
  have hp : (parseRecalling .default (fun _ => .ok) "x? ( a ) b").result =
      .ok ⟨[.group (.when ⟨"x", false⟩) [.term "a"], .term "b"], true⟩ := rfl
  have hr : run regroupingRun =
      ⟨[.group (.when ⟨"x", false⟩) [.term "a"], .term "b", item],
        [⟨[.group (.when ⟨"x", false⟩) [.term "a"], .term "b"], true⟩, .ofItems [item]]⟩ := by
    simp [run, regroupingRun, perform, made, hp, Except.toOption, pick, start, Item.anyOf?,
      Item.group?, item]
  have hi : item ∈ (run regroupingRun).items := by simp [hr]
  have hs : Spec.ofItems [item] ∈ (run regroupingRun).specs := by simp [hr]
  obtain ⟨hitems, hspecs, hguard⟩ := representation_run regroupingRun
  obtain ⟨-, hc, he⟩ := hspecs _ hs
  refine ⟨hi, hs, hitems item hi, hc.mpr ⟨⟨"x", false⟩, by decide⟩, (he _).2, ?_⟩
  exact Option.eq_none_iff_forall_ne_some.mpr fun made hm => by
    obtain ⟨-, test, ht, -⟩ := (hguard _ _ _).mp hm
    cases ht

end Session

end DepSpec
