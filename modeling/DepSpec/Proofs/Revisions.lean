import DepSpec.Flattened
import DepSpec.Proofs.PermittedText
import DepSpec.Revision

/-! However specifications that were read are revised, they remain readable: well formed, with
legible terms and flags. So their texts are always read, and written again as they were. -/

namespace DepSpec

/-- No group is empty, and all terms and flags are read as what they are. -/
structure Item.Readable (item : Item String) : Prop where
  wellFormed : item.WellFormed
  terms : ∀ value ∈ item.terms, IsWord value ∧ IsTermWord value
  flags : ∀ test ∈ item.tests, IsWord test.flag ∧ IsFlagName test.flag

structure Spec.Readable (spec : Spec String) : Prop where
  wellFormed : spec.WellFormed
  legible : spec.Legible id

theorem Spec.Readable.item {spec : Spec String} (h : spec.Readable) {item : Item String}
    (hi : item ∈ spec.items) : item.Readable where
  wellFormed := wellFormedItems_iff.mp h.wellFormed.1 item hi
  terms value hv := h.legible.terms value (mem_termsOfItems.mpr ⟨item, hi, hv⟩)
  flags test ht := h.legible.flags test (mem_testsOfItems.mpr ⟨item, hi, ht⟩)

theorem Spec.readable_ofItems {items : List (Item String)} (h : ∀ item ∈ items, item.Readable) :
    (Spec.ofItems items).Readable := by
  have hw : WellFormedItems items := wellFormedItems_iff.mpr fun item hi => (h item hi).wellFormed
  refine ⟨wellFormed_ofItems hw, ?_, ?_⟩
  · intro value hv
    obtain ⟨item, hi, hv⟩ := mem_termsOfItems.mp hv
    exact (h item hi).terms value hv
  · intro test ht
    obtain ⟨item, hi, ht⟩ := mem_testsOfItems.mp ht
    exact (h item hi).flags test ht

theorem Item.Readable.member {item : Item String} (h : item.Readable) {member : Item String}
    (hm : member ∈ item.members) : member.Readable := by
  cases item with
  | term value => simp [members] at hm
  | group head members =>
    refine ⟨wellFormedItems_iff.mp h.wellFormed.members member hm, fun value hv => ?_,
      fun test ht => ?_⟩
    · refine h.terms value ?_
      rw [Item.terms]
      exact mem_termsOfItems.mpr ⟨member, hm, hv⟩
    · refine h.flags test ?_
      rw [Item.tests]
      exact List.mem_append_right _ (mem_testsOfItems.mpr ⟨member, hm, ht⟩)

theorem Item.eq_group_of_group? {α : Type} {head : Head} {members : List (Item α)}
    {item : Item α} (h : group? head members = some item) : item = .group head members := by
  cases members with
  | nil => simp [group?] at h
  | cons member members => simpa [group?, eq_comm] using h

theorem Item.readable_of_group? {head : Head} {members : List (Item String)} {item : Item String}
    (hm : ∀ member ∈ members, member.Readable)
    (ht : ∀ test ∈ head.test?, IsWord test.flag ∧ IsFlagName test.flag)
    (h : group? head members = some item) : item.Readable := by
  have hw : item.WellFormed :=
    wellFormed_of_group? (wellFormedItems_iff.mpr fun member hr => (hm member hr).wellFormed) h
  obtain rfl := eq_group_of_group? h
  refine ⟨hw, fun value hv => ?_, fun test hf => ?_⟩
  · rw [Item.terms] at hv
    obtain ⟨member, hr, hv⟩ := mem_termsOfItems.mp hv
    exact (hm member hr).terms value hv
  · rw [Item.tests] at hf
    rcases List.mem_append.mp hf with hf | hf
    · exact ht test (Option.mem_toList.mp hf)
    · obtain ⟨member, hr, hf⟩ := mem_testsOfItems.mp hf
      exact (hm member hr).flags test hf

theorem Guard.ofToken_eq_ok {token : String} {guard : Guard} (h : ofToken token = .ok guard)
    (hb : ∀ c ∈ token.toList, isBlank c = false) :
    ∃ test, guard = .test test ∧ IsWord test.flag ∧ IsFlagName test.flag := by
  unfold ofToken at h
  split at h
  · rename_i test hs
    obtain ⟨rfl, hn⟩ := FlagTest.ofToken?_eq_some_iff.mp hs
    -- the flag is a part of the token
    refine ⟨test, (Except.ok.inj h).symm, ⟨hn.1, fun c hc => hb c ?_⟩, hn⟩
    unfold FlagTest.text
    cases test.negated <;> simp [hc]
  · cases h

namespace Spec

theorem readable_of_parseText {text : String} {spec : Spec String}
    (h : parseText text = .ok spec) : spec.Readable :=
  ⟨wellFormed_of_parseWords h, legible_of_parseWords h⟩

theorem Readable.evaluate {spec : Spec String} (h : spec.Readable) (selection : FlagSelection) :
    (spec.evaluate selection).Readable :=
  ⟨h.wellFormed.evaluate selection, h.legible.evaluate selection⟩

theorem readable_joined {specs : List (Spec String)} (h : ∀ spec ∈ specs, spec.Readable) :
    (joined specs).Readable := by
  refine readable_ofItems fun item hi => ?_
  obtain ⟨spec, hs, hi⟩ := List.mem_flatMap.mp hi
  exact (h spec hs).item hi

theorem Readable.membersAt? {spec made : Spec String} (h : spec.Readable) {index : Nat}
    (hm : spec.membersAt? index = some made) : made.Readable := by
  obtain ⟨item, hi, rfl⟩ := Option.map_eq_some_iff.mp hm
  exact readable_ofItems fun member hr => (h.item (List.mem_of_getElem? hi)).member hr

theorem readable_of_wrapped? {spec made : Spec String}
    {wrap : List (Item String) → Option (Item String)}
    (hw : ∀ item, wrap spec.items = some item → item.Readable)
    (hm : spec.wrapped? wrap = some made) : made.Readable := by
  obtain ⟨item, hi, rfl⟩ := Option.map_eq_some_iff.mp hm
  exact readable_ofItems fun member hr => List.mem_singleton.mp hr ▸ hw item hi

end Spec

namespace Revision

variable {held : List (Spec String)}

/-- The token of a conditional has no blank. -/
def Spaceless : Revision → Prop
  | .conditional token _ => ∀ c ∈ token.toList, isBlank c = false
  | _ => True

theorem toOption_eq_some_iff {ε α : Type} {result : Except ε α} {value : α} :
    result.toOption = some value ↔ result = .ok value := by
  cases result <;> simp [Except.toOption]

theorem readable_made (h : ∀ spec ∈ held, spec.Readable) {revision : Revision}
    (hr : revision.Spaceless) {made : Spec String} (hm : revision.made? held = some made) :
    made.Readable := by
  have hat : ∀ {position : Nat} {spec : Spec String}, held[position]? = some spec →
      spec.Readable := fun hp => h _ (List.mem_of_getElem? hp)
  cases revision with
  | read text => exact Spec.readable_of_parseText (toOption_eq_some_iff.mp hm)
  | empty =>
    obtain rfl := Option.some.inj hm
    exact ⟨Spec.wellFormed_empty, by simp [Spec.empty, termsOfItems],
      by simp [Spec.empty, testsOfItems]⟩
  | evaluate selection position =>
    obtain ⟨spec, hp, rfl⟩ := Option.map_eq_some_iff.mp hm
    exact (hat hp).evaluate selection
  | copy position =>
    obtain ⟨spec, hp, rfl⟩ := Option.map_eq_some_iff.mp hm
    rw [Spec.map_id]
    exact hat hp
  | reread position =>
    obtain ⟨spec, -, hm⟩ := Option.bind_eq_some_iff.mp hm
    exact Spec.readable_of_parseText (toOption_eq_some_iff.mp hm)
  | join positions =>
    obtain rfl := Option.some.inj hm
    refine Spec.readable_joined fun spec hs => ?_
    obtain ⟨position, -, hp⟩ := List.mem_filterMap.mp hs
    exact hat hp
  | membersAt index position =>
    obtain ⟨spec, hp, hm⟩ := Option.bind_eq_some_iff.mp hm
    exact (hat hp).membersAt? hm
  | allOf position =>
    obtain ⟨spec, hp, hm⟩ := Option.bind_eq_some_iff.mp hm
    refine Spec.readable_of_wrapped? (fun item hi => ?_) hm
    exact Item.readable_of_group? (fun member hr => (hat hp).item hr) (by simp [Head.test?]) hi
  | anyOf position =>
    obtain ⟨spec, hp, hm⟩ := Option.bind_eq_some_iff.mp hm
    refine Spec.readable_of_wrapped? (fun item hi => ?_) hm
    exact Item.readable_of_group? (fun member hr => (hat hp).item hr) (by simp [Head.test?]) hi
  | conditional token position =>
    obtain ⟨guard, hg, hm⟩ := Option.bind_eq_some_iff.mp hm
    obtain ⟨spec, hp, hm⟩ := Option.bind_eq_some_iff.mp hm
    obtain ⟨test, rfl, hf⟩ := Guard.ofToken_eq_ok (toOption_eq_some_iff.mp hg) hr
    refine Spec.readable_of_wrapped? (fun item hi => ?_) hm
    exact Item.readable_of_group? (fun member hr => (hat hp).item hr)
      (by simpa [Head.test?] using hf) hi

theorem readable_perform (h : ∀ spec ∈ held, spec.Readable) {revision : Revision}
    (hr : revision.Spaceless) : ∀ spec ∈ perform held revision, spec.Readable := by
  intro spec hs
  rcases List.mem_append.mp hs with hs | hs
  · exact h spec hs
  · exact readable_made h hr (Option.mem_toList.mp hs)

theorem readable_foldl_perform (h : ∀ spec ∈ held, spec.Readable) {revisions : List Revision}
    (hr : ∀ revision ∈ revisions, revision.Spaceless) :
    ∀ spec ∈ revisions.foldl perform held, spec.Readable := by
  induction revisions generalizing held with
  | nil => exact h
  | cons revision revisions ih =>
    exact ih (readable_perform h (hr revision List.mem_cons_self))
      fun later hl => hr later (List.mem_cons_of_mem revision hl)

/-- Whatever is held after some revisions is written as a text that is read, and that is written
again for what was read. -/
theorem parseText_text_run (revisions : List Revision)
    (hr : ∀ revision ∈ revisions, revision.Spaceless) :
    ∀ spec ∈ run revisions, ∃ again, parseText spec.text = .ok again ∧ again.text = spec.text := by
  intro spec hs
  have h : spec.Readable := readable_foldl_perform (by simp) hr spec hs
  exact ⟨spec.flattened, h.legible.parseText_text h.wellFormed, spec.render_flattened id⟩

/-- What was read is put under a flag and then into a conjunction, which the text does not show. -/
def nestingRun : List Revision :=
  [.read "|| ( a ( b c ) )", .conditional "!x" 0, .allOf 1]

theorem parseText_text_nestingRun :
    let choice : Item String := .group .anyOf [.term "a", .group .allOf [.term "b", .term "c"]]
    let nested := Spec.ofItems [.group .allOf [.group (.when ⟨"x", true⟩) [choice]]]
    (∀ revision ∈ nestingRun, revision.Spaceless) ∧ nested ∈ run nestingRun ∧
      nested.text = "!x? ( || ( a ( b c ) ) )" ∧
      ∃ again, parseText nested.text = .ok again ∧ again.text = nested.text := by
  intro choice nested
  have hs : ∀ revision ∈ nestingRun, revision.Spaceless := by
    simp [nestingRun, Spaceless, isBlank]
  have hr : run nestingRun =
      [⟨[choice], false⟩, .ofItems [.group (.when ⟨"x", true⟩) [choice]], nested] := rfl
  have hm : nested ∈ run nestingRun := by simp [hr]
  have ht : nested.text = "!x? ( || ( a ( b c ) ) )" := by
    rw [Spec.text, Spec.render, Spec.parts_eq_partsOfItems]
    rfl
  exact ⟨hs, hm, ht, parseText_text_run nestingRun hs nested hm⟩

end Revision

end DepSpec
