import DepSpec.Copying
import DepSpec.Storage
import DepSpec.Proofs.WellFormedness

/-! Equality is structural, and so is copying. The comparison in lockstep ends and tells whether the
items are equal; a copy is equal to what it was made of. Specifications that come out of a session
are the same if their items are, wherever these are stored. -/

namespace DepSpec

variable {α : Type}

theorem equivalence_of_iff_eq {β : Type} {same : β → β → Bool}
    (h : ∀ x y, same x y = true ↔ x = y) : Equivalence fun x y => same x y = true := by
  simp only [h]
  exact ⟨fun _ => rfl, Eq.symm, Eq.trans⟩

theorem Session.exists_specs_made (session : Session α) (operation : Operation α) :
    ∃ made? : Option (Spec α), (session.made operation).specs = made?.toList := by
  cases operation with
  | parse allowed readTerm text => exact ⟨_, rfl⟩
  | empty => exact ⟨some .empty, rfl⟩
  | ofItems positions => exact ⟨some (.ofItems (session.pick positions)), rfl⟩
  | evaluate selection position => exact ⟨_, Option.toList_map.symm⟩
  | copySpec position => exact ⟨_, Option.toList_map.symm⟩
  | itemsOf | term | allOf | anyOf | conditional | copyItem | membersOf => exact ⟨none, rfl⟩

namespace StoredSession

variable {session : StoredSession α}

/-- Storages in use have been given out, and each holds one specification only. -/
structure Consistent (session : StoredSession α) : Prop where
  used : ∀ a ∈ session.specs, a.storage < session.nextStorage
  shared : ∀ a ∈ session.specs, ∀ b ∈ session.specs, a.storage = b.storage → a.spec = b.spec

theorem specs_made_at {position : Nat} {stored : Stored α} {f : Spec α → Spec α}
    (h : session.specs[position]? = some stored) (hf : f stored.spec = stored.spec) :
    session.plain.specs[position]?.toList.map f = [stored.spec] := by
  rw [plain, List.getElem?_map, h, Option.map_some, Option.toList_some, List.map_singleton, hf]

/-- What shares a storage is the specification that was stored there before. -/
theorem specs_perform_of_shared? {operation : Operation α} {stored : Stored α}
    (h : session.shared? operation = some stored) :
    stored ∈ session.specs ∧
      (session.perform operation).specs = session.specs ++ [stored] := by
  have hp : stored ∈ session.specs ∧ (session.plain.made operation).specs = [stored.spec] := by
    cases operation with
    | copySpec position =>
      exact ⟨List.mem_of_getElem? h, specs_made_at h stored.spec.map_id⟩
    | evaluate selection position =>
      obtain ⟨hg, hc⟩ := Option.filter_eq_some_iff.mp h
      refine ⟨List.mem_of_getElem? hg, specs_made_at hg ?_⟩
      rw [Spec.evaluate, if_neg (by simpa using hc)]
    | _ => cases h
  refine ⟨hp.1, ?_⟩
  rw [perform, storageFor, h, hp.2]
  rfl

theorem specs_perform_of_shared?_eq_none {operation : Operation α}
    (h : session.shared? operation = none) :
    ∃ made? : Option (Spec α), (session.perform operation).specs =
      session.specs ++ (made?.map (Stored.mk session.nextStorage)).toList := by
  obtain ⟨made?, hm⟩ := session.plain.exists_specs_made operation
  refine ⟨made?, ?_⟩
  rw [Option.toList_map, ← hm, perform, storageFor, h]
  rfl

theorem consistent_start : (start : StoredSession α).Consistent :=
  ⟨by simp [start], by simp [start]⟩

theorem Consistent.perform (h : session.Consistent) (operation : Operation α) :
    (session.perform operation).Consistent := by
  have hn : (session.perform operation).nextStorage = session.nextStorage + 1 := rfl
  cases hs : session.shared? operation with
  | some stored =>
    obtain ⟨hm, hp⟩ := specs_perform_of_shared? hs
    have hsub : ∀ a ∈ (session.perform operation).specs, a ∈ session.specs := by
      intro a ha
      rw [hp] at ha
      rcases List.mem_append.mp ha with ha | ha
      · exact ha
      · exact List.mem_singleton.mp ha ▸ hm
    constructor
    · intro a ha
      have := h.used a (hsub a ha)
      omega
    · intro a ha b hb
      exact h.shared a (hsub a ha) b (hsub b hb)
  | none =>
    obtain ⟨made?, hp⟩ := specs_perform_of_shared?_eq_none hs
    have hcases : ∀ a ∈ (session.perform operation).specs,
        a ∈ session.specs ∧ a.storage < session.nextStorage ∨
          a.storage = session.nextStorage ∧ made? = some a.spec := by
      intro a ha
      rw [hp] at ha
      rcases List.mem_append.mp ha with ha | ha
      · exact .inl ⟨ha, h.used a ha⟩
      · obtain ⟨spec, hm, rfl⟩ := Option.map_eq_some_iff.mp (Option.mem_toList.mp ha)
        exact .inr ⟨rfl, hm⟩
    constructor
    · intro a ha
      rcases hcases a ha with ⟨-, ha⟩ | ⟨ha, -⟩ <;> omega
    · intro a ha b hb he
      rcases hcases a ha with ⟨ha, hu⟩ | ⟨hu, ha⟩ <;> rcases hcases b hb with ⟨hb, hv⟩ | ⟨hv, hb⟩
      · exact h.shared a ha b hb he
      · omega
      · omega
      · exact Option.some.inj (ha.symm.trans hb)

theorem consistent_run (operations : List (Operation α)) : (run operations).Consistent :=
  List.foldlRecOn operations StoredSession.perform consistent_start
    fun _ h operation _ => h.perform operation

theorem spec_eq_of_items_eq {operations : List (Operation α)} {a b : Stored α}
    (ha : a ∈ (run operations).specs) (hb : b ∈ (run operations).specs)
    (h : a.spec.items = b.spec.items) : a.spec = b.spec := by
  have hw := (Session.wellFormed_run operations).specs
  have hc : a.spec.conditional = b.spec.conditional := by
    rw [(hw _ (mem_specs_run ha)).2, (hw _ (mem_specs_run hb)).2, h]
  exact Spec.mk.injEq .. ▸ ⟨h, hc⟩

theorem same_run_eq [DecidableEq α] {operations : List (Operation α)} {a b : Stored α}
    (ha : a ∈ (run operations).specs) (hb : b ∈ (run operations).specs) :
    a.same b = sameInLockstep a.spec.items b.spec.items := by
  rw [Bool.eq_iff_iff, sameInLockstep_iff, Stored.same, Bool.or_eq_true, Bool.and_eq_true,
    beq_iff_eq, beq_iff_eq, sameInLockstep_iff]
  constructor
  · rintro (h | ⟨-, h⟩)
    · rw [(consistent_run operations).shared a ha b hb h]
    · exact h
  · intro h
    exact .inr ⟨by rw [spec_eq_of_items_eq ha hb h], h⟩

end StoredSession

/-- Comparing in lockstep and copying both end. The comparison tells whether the items are equal,
and the copy is handed out at the end of the items at the top and equal to them. So items and groups
are the same if they are equal, and the same as their copies. However a session went on, shared
storages and marks never tell its specifications apart otherwise than their items do. -/
theorem sameInLockstep_and_copyItems_structural (α : Type) [DecidableEq α] :
    (WellFounded fun later pairs : List (Pairing α) => Pairing.turn pairs = .goOn later) ∧
    (∀ xs ys : List (Item α), (sameInLockstep xs ys = true ↔ xs = ys) ∧
      sameInLockstep xs ys = sameItems xs ys) ∧
    (WellFounded fun later frames : List (CopyFrame α) => CopyFrame.turn frames = .goOn later) ∧
    (∀ items : List (Item α), CopyFrame.loop.answer (CopyFrame.start items) = some items ∧
      copyItems items = items ∧ copyItems items = mapTerms id items) ∧
    (Equivalence fun x y : Item α => x.same y = true) ∧
    (Equivalence fun a b : Head × List (Item α) => sameGroup a b = true) ∧
    (∀ item : Item α, item.same item.copy = true) ∧
    (∀ group : Head × List (Item α), sameGroup group (copyGroup group) = true) ∧
    ∀ operations : List (Operation α),
      let session := StoredSession.run operations
      (∀ a ∈ session.specs, ∀ b ∈ session.specs,
        (a.same b = true ↔ a.spec.items = b.spec.items) ∧
          a.same b = sameInLockstep a.spec.items b.spec.items) ∧
      ∀ position stored, session.specs[position]? = some stored →
        (session.perform (.copySpec position)).specs = session.specs ++ [stored] := by
  refine ⟨Pairing.loop.wellFounded,
    fun xs ys => ⟨sameInLockstep_iff, sameInLockstep_eq_sameItems xs ys⟩,
    CopyFrame.loop.wellFounded,
    fun items => ⟨CopyFrame.answer_loop_start items, copyItems_eq items, ?_⟩,
    equivalence_of_iff_eq fun x y => Item.same_iff, equivalence_of_iff_eq fun a b => sameGroup_iff,
    fun item => Item.same_iff.mpr item.copy_eq.symm,
    fun group => sameGroup_iff.mpr (copyGroup_eq group).symm, fun operations => ⟨?_, ?_⟩⟩
  · rw [copyItems_eq, mapTerms_eq_mapAll, Item.mapAll_id]
  · intro a ha b hb
    have hs := StoredSession.same_run_eq ha hb
    exact ⟨by rw [hs, sameInLockstep_iff], hs⟩
  · intro position stored h
    have hs : (StoredSession.run operations).shared? (.copySpec position) = some stored := h
    exact (StoredSession.specs_perform_of_shared? hs).2

/-- The first specification is copied and evaluated; what is left of it is evaluated again, and read
from a text of its own. -/
def sharingRun : List (Operation String) :=
  [.parse .default (fun _ => .ok) "x? ( a )", .copySpec 0, .evaluate ⟨["x"], none⟩ 0,
    .evaluate ⟨[], none⟩ 2, .parse .default (fun _ => .ok) "a"]

theorem sameInLockstep_and_copyItems_sharingRun :
    let session := StoredSession.run sharingRun
    let guarded : Spec String := ⟨[.group (.when ⟨"x", false⟩) [.term "a"]], true⟩
    let left : Spec String := ⟨[.term "a"], false⟩
    session.specs = [⟨0, guarded⟩, ⟨0, guarded⟩, ⟨2, left⟩, ⟨2, left⟩, ⟨4, left⟩] ∧
      (⟨2, left⟩ : Stored String).same ⟨4, left⟩ = true ∧
      (⟨0, guarded⟩ : Stored String).same ⟨2, left⟩ = false ∧
      (session.perform (.copySpec 4)).specs = session.specs ++ [⟨4, left⟩] := by
  intro session guarded left
  have hx : (parseRecalling .default (fun _ => .ok) "x? ( a )").result = .ok guarded := rfl
  have ha : (parseRecalling .default (fun _ => .ok) "a").result = .ok left := rfl
  have he : guarded.evaluate ⟨["x"], none⟩ = left := by
    rw [Spec.evaluate, if_pos rfl, collapse_eq_collapsedMembers]
    rfl
  have hl : left.evaluate ⟨[], none⟩ = left := rfl
  have hs : (StoredSession.run sharingRun).specs =
      [⟨0, guarded⟩, ⟨0, guarded⟩, ⟨2, left⟩, ⟨2, left⟩, ⟨4, left⟩] := by
    simp [sharingRun, StoredSession.run, StoredSession.start, StoredSession.perform,
      StoredSession.plain, StoredSession.storageFor, StoredSession.shared?, Session.made, hx, ha,
      he, hl, Except.toOption, Option.filter, guarded, left, Spec.map_id]
  obtain ⟨-, -, -, -, -, -, -, -, hruns⟩ := sameInLockstep_and_copyItems_structural String
  obtain ⟨hsame, hcopy⟩ := hruns sharingRun
  refine ⟨hs, ?_, ?_, hcopy 4 _ (by rw [hs]; rfl)⟩
  · exact (hsame ⟨2, left⟩ (by simp [hs]) ⟨4, left⟩ (by simp [hs])).1.mpr rfl
  · rw [Bool.eq_false_iff, Ne, (hsame ⟨0, guarded⟩ (by simp [hs]) ⟨2, left⟩ (by simp [hs])).1]
    simp [guarded, left]

end DepSpec
