import DepSpec.CacheRun
import Mathlib.Data.Finset.Card

/-! What a cache answers is told by the log of its run alone. It holds the first success of each
text since it was cleared, and hands out one entry for one text until it is cleared again. -/

namespace DepSpec

variable {α : Type}

namespace CacheEvent

/-- How often a cache is cleared in a log. -/
def clearings (log : List (CacheEvent α)) : Nat :=
  log.countP isCleared

theorem clearings_eq_zero_of_isCleared {event : CacheEvent α} (h : event.isCleared = false) :
    clearings [event] = 0 := by
  simp [clearings, h]

theorem clearings_eq_zero_iff {log : List (CacheEvent α)} : clearings log = 0 ↔ .cleared ∉ log := by
  rw [clearings, List.countP_eq_zero]
  constructor
  · exact fun h hm => h _ hm rfl
  · intro h event hm hc
    cases event with
    | cleared => exact h hm
    | _ => cases hc

/-- What a log hands out. Each entry comes after the number of times that the cache was cleared
before, and the text that it is handed out for. -/
def handouts (before : Nat) : List (CacheEvent α) → List ((Nat × String) × Entry α)
  | [] => []
  | event :: log =>
    event.handedOut?.toList.map (fun (text, entry) => ((before, text), entry)) ++
      handouts (before + clearings [event]) log

theorem handouts_append (before : Nat) (log later : List (CacheEvent α)) :
    handouts before (log ++ later) =
      handouts before log ++ handouts (before + clearings log) later := by
  induction log generalizing before with
  | nil => rfl
  | cons event log ih =>
    have hc : clearings [event] + clearings log = clearings (event :: log) := by
      simp [clearings, List.countP_cons, Nat.add_comm]
    rw [List.cons_append, handouts, handouts, ih, List.append_assoc, Nat.add_assoc, hc]

theorem le_of_mem_handouts {before : Nat} {log : List (CacheEvent α)}
    {handout : (Nat × String) × Entry α} (h : handout ∈ handouts before log) :
    handout.1.1 ≤ before + clearings log := by
  induction log generalizing before with
  | nil => simp [handouts] at h
  | cons event log ih =>
    have hc : clearings (event :: log) = clearings [event] + clearings log := by
      simp [clearings, List.countP_cons, Nat.add_comm]
    rw [handouts] at h
    rcases List.mem_append.mp h with h | h
    · obtain ⟨given, -, rfl⟩ := List.mem_map.mp h
      simp
    · have hl := ih h
      omega

/-- One entry goes with one text between one clearing and the next, and is told by its number. -/
def Shared (handouts : List ((Nat × String) × Entry α)) : Prop :=
  ∀ x ∈ handouts, ∀ y ∈ handouts,
    (x.2 = y.2 ↔ x.1 = y.1) ∧ (x.2.number = y.2.number ↔ x.2 = y.2)

theorem Shared.concat {handouts : List ((Nat × String) × Entry α)}
    {handout : (Nat × String) × Entry α} (h : Shared handouts)
    (ht : ∀ x ∈ handouts, x.1 ≠ handout.1)
    (hn : ∀ x ∈ handouts, x.2.number ≠ handout.2.number) : Shared (handouts ++ [handout]) := by
  have he : ∀ x ∈ handouts, x.2 ≠ handout.2 := fun x hx hxe => hn x hx (congrArg _ hxe)
  intro x hx y hy
  rcases List.mem_append.mp hx with hxm | hxm <;> rcases List.mem_append.mp hy with hym | hym
  · exact h x hxm y hym
  · obtain rfl := List.mem_singleton.mp hym
    simp [ht x hxm, he x hxm, hn x hxm]
  · obtain rfl := List.mem_singleton.mp hxm
    simp [(ht y hym).symm, (he y hym).symm, (hn y hym).symm]
  · obtain rfl := List.mem_singleton.mp hxm
    obtain rfl := List.mem_singleton.mp hym
    simp

theorem isCleared_eq_false_of_handedOut? {event : CacheEvent α} {given : String × Entry α}
    (h : event.handedOut? = some given) : event.isCleared = false := by
  cases event with
  | cleared => cases h
  | _ => rfl

theorem success?_eq_none {event : CacheEvent α} (h : event.handedOut? = none) :
    event.success? = none := by
  match event with
  | .requested text (.ok entry) shown => cases h
  | .requested text (.error error) shown => rfl
  | .got text found => rfl
  | .cleared => rfl

end CacheEvent

namespace CacheRun

open CacheEvent

@[simp] theorem note_cache (run : CacheRun α) (cache : Cache α) (event : CacheEvent α) :
    (run.note cache event).cache = cache := rfl

def handouts (run : CacheRun α) : List ((Nat × String) × Entry α) :=
  CacheEvent.handouts 0 run.log

theorem handouts_note (run : CacheRun α) (cache : Cache α) (event : CacheEvent α) :
    (run.note cache event).handouts =
      run.handouts ++ event.handedOut?.toList.map
        fun (text, entry) => ((clearings run.log, text), entry) := by
  simp [handouts, note, handouts_append, CacheEvent.handouts]

theorem clearings_note (run : CacheRun α) (cache : Cache α) (event : CacheEvent α) :
    clearings (run.note cache event).log = clearings run.log + clearings [event] := by
  simp [clearings, note]

theorem clearings_note_of_isCleared {event : CacheEvent α} (h : event.isCleared = false)
    (run : CacheRun α) (cache : Cache α) :
    clearings (run.note cache event).log = clearings run.log := by
  rw [clearings_note, clearings_eq_zero_of_isCleared h, Nat.add_zero]

theorem successes_note {event : CacheEvent α} (h : event.isCleared = false) (run : CacheRun α)
    (cache : Cache α) :
    (run.note cache event).successes = run.successes ++ event.success?.toList := by
  rw [successes, note, List.rtakeWhile_concat_pos _ _ _ (by simp [h]), List.filterMap_append,
    ← successes]
  cases he : event.success? <;> simp [he]

theorem successes_note_cleared (run : CacheRun α) (cache : Cache α) :
    (run.note cache .cleared).successes = [] := by
  rw [successes, note, List.rtakeWhile_concat_neg _ _ _ (by simp [isCleared]), List.filterMap_nil]

/-- The cache is as the log tells. -/
structure Faithful (run : CacheRun α) : Prop where
  get?_eq : ∀ text, run.cache.get? text = run.successes.lookup text
  size_eq : run.cache.size = (run.successes.map Prod.fst).toFinset.card
  /-- The entries held are those handed out since the cache was cleared. -/
  held : ∀ text entry, run.cache.get? text = some entry ↔
    ((clearings run.log, text), entry) ∈ run.handouts
  number_lt : ∀ handout ∈ run.handouts, handout.2.number < run.cache.nextNumber
  shared : Shared run.handouts

theorem faithful_start (allowed : AllowedOperators) : (start allowed : CacheRun α).Faithful where
  get?_eq text := Cache.get?_ofAllowed allowed text
  size_eq := by simp [start, Cache.size, Cache.ofAllowed, successes]
  held text entry := by simp [start, Cache.get?_ofAllowed, handouts, CacheEvent.handouts]
  number_lt := by simp [start, handouts, CacheEvent.handouts]
  shared := by simp [start, handouts, CacheEvent.handouts, Shared]

theorem Faithful.mem_successes {run : CacheRun α} (h : run.Faithful) {text : String}
    {entry : Entry α} (hg : run.cache.get? text = some entry) :
    text ∈ run.successes.map Prod.fst := by
  rw [h.get?_eq, List.lookup_eq_some_iff] at hg
  obtain ⟨earlier, later, hs, -⟩ := hg
  rw [hs]
  simp

theorem Faithful.not_mem_successes {run : CacheRun α} (h : run.Faithful) {text : String}
    (hg : run.cache.get? text = none) : text ∉ run.successes.map Prod.fst := by
  rw [h.get?_eq, List.lookup_eq_none_iff] at hg
  intro hm
  obtain ⟨success, hs, rfl⟩ := List.mem_map.mp hm
  simpa using hg success hs

/-- An entry that is held may be handed out once more. -/
theorem Faithful.again {run : CacheRun α} (h : run.Faithful) {event : CacheEvent α}
    {text : String} {entry : Entry α} (hg : run.cache.get? text = some entry)
    (hh : event.handedOut? = some (text, entry))
    (hs : event.success? = none ∨ event.success? = some (text, entry)) :
    (run.note run.cache event).Faithful := by
  have hc := isCleared_eq_false_of_handedOut? hh
  have hm : ∀ handout, handout ∈ (run.note run.cache event).handouts ↔
      handout ∈ run.handouts := by
    intro handout
    have hin := (h.held text entry).mp hg
    simp only [handouts_note, hh, Option.toList_some, List.map_cons, List.map_nil,
      List.mem_append, List.mem_singleton]
    exact ⟨fun hx => hx.elim id fun he => he ▸ hin, .inl⟩
  constructor
  case get?_eq =>
    intro other
    rw [successes_note hc, List.lookup_append, ← h.get?_eq, note_cache]
    rcases hs with hs | hs
    · simp [hs]
    · by_cases ho : other = text
      · simp [ho, hg]
      · have hn : [(text, entry)].lookup other = none := by simp [List.lookup_eq_none_iff, ho]
        simp [hs, hn]
  case size_eq =>
    have ht := h.mem_successes hg
    rw [successes_note hc, note_cache, h.size_eq]
    rcases hs with hs | hs
    · simp [hs]
    · have hu : {text} ⊆ (run.successes.map Prod.fst).toFinset := by simpa using ht
      simp [hs, Finset.union_eq_left.mpr hu]
  case held =>
    intro other found
    rw [hm, clearings_note_of_isCleared hc]
    exact h.held other found
  case number_lt =>
    intro handout hx
    exact h.number_lt handout ((hm handout).mp hx)
  case shared =>
    intro x hx y hy
    exact h.shared x ((hm x).mp hx) y ((hm y).mp hy)

theorem Faithful.nothing {run : CacheRun α} (h : run.Faithful) {event : CacheEvent α}
    (hh : event.handedOut? = none) (hc : event.isCleared = false) :
    (run.note run.cache event).Faithful := by
  have hs : (run.note run.cache event).successes = run.successes := by
    simp [successes_note hc, success?_eq_none hh]
  have hm : (run.note run.cache event).handouts = run.handouts := by
    simp [handouts_note, hh]
  have hp := clearings_note_of_isCleared hc run run.cache
  exact ⟨fun text => hs ▸ h.get?_eq text, hs ▸ h.size_eq,
    fun text entry => hm ▸ hp ▸ h.held text entry, hm ▸ h.number_lt, hm ▸ h.shared⟩

theorem Faithful.clear {run : CacheRun α} (h : run.Faithful) :
    (run.note run.cache.clear .cleared).Faithful := by
  have hm : (run.note run.cache.clear .cleared).handouts = run.handouts := by
    simp [handouts_note, handedOut?]
  constructor
  case get?_eq =>
    intro text
    rw [successes_note_cleared]
    exact run.cache.get?_clear text
  case size_eq =>
    rw [successes_note_cleared]
    simp [Cache.size, Cache.clear]
  case held =>
    intro text entry
    -- no handout is as late as the clearing
    have hn : ((clearings run.log + 1, text), entry) ∉ run.handouts := by
      intro hx
      have hl : clearings run.log + 1 ≤ 0 + clearings run.log := le_of_mem_handouts hx
      omega
    have hp : clearings (run.note run.cache.clear .cleared).log = clearings run.log + 1 :=
      clearings_note ..
    rw [hm, hp, note_cache, Cache.get?_clear]
    simp [hn]
  case number_lt => exact hm ▸ h.number_lt
  case shared => exact hm ▸ h.shared

theorem Faithful.insert {run : CacheRun α} (h : run.Faithful) {text : String}
    (hg : run.cache.get? text = none) (spec : Spec α) (shown : List String) :
    (run.note (run.cache.insert text spec).2
      (.requested text (.ok (run.cache.insert text spec).1) shown)).Faithful := by
  have hnumber : (run.cache.insert text spec).1.number = run.cache.nextNumber := by
    rw [Cache.insert_of_missing hg]
  have hnext : (run.cache.insert text spec).2.nextNumber = run.cache.nextNumber + 1 := by
    rw [Cache.insert_of_missing hg]
  have hsize := Cache.size_insert hg spec
  have hget := (run.cache.get?_insert text · spec)
  generalize (run.cache.insert text spec).2 = cache at *
  generalize (run.cache.insert text spec).1 = entry at *
  have hs : (run.note cache (.requested text (.ok entry) shown)).successes =
      run.successes ++ [(text, entry)] :=
    successes_note rfl run cache
  have hm : (run.note cache (.requested text (.ok entry) shown)).handouts =
      run.handouts ++ [((clearings run.log, text), entry)] :=
    handouts_note run cache _
  have hp : clearings (run.note cache (.requested text (.ok entry) shown)).log =
      clearings run.log :=
    clearings_note_of_isCleared rfl run cache
  constructor
  case get?_eq =>
    intro other
    rw [hs, note_cache, hget, List.lookup_append, ← h.get?_eq]
    by_cases ho : text = other
    · simp [← ho, hg]
    · have hn : [(text, entry)].lookup other = none := by
        simp [List.lookup_eq_none_iff, Ne.symm ho]
      simp [ho, hn]
  case size_eq =>
    have ht := h.not_mem_successes hg
    rw [hs, note_cache, hsize, h.size_eq, List.map_append, List.toFinset_append,
      List.map_singleton, List.toFinset_cons, List.toFinset_nil, Finset.union_insert,
      Finset.union_empty, Finset.card_insert_of_notMem (by simpa using ht)]
  case held =>
    intro other found
    rw [hp, hm, note_cache, hget, List.mem_append, ← h.held]
    by_cases ho : text = other
    · simp [← ho, hg, eq_comm]
    · simp [ho, Ne.symm ho]
  case number_lt =>
    intro handout hx
    rw [hm] at hx
    rw [note_cache, hnext]
    rcases List.mem_append.mp hx with hx | hx
    · exact Nat.lt_succ_of_lt (h.number_lt handout hx)
    · rw [List.mem_singleton.mp hx, hnumber]
      exact Nat.lt_succ_self _
  case shared =>
    -- neither the text with this count of clearings nor the number was handed out before
    have ht : ∀ handout ∈ run.handouts, handout.1 ≠ (clearings run.log, text) := by
      rintro ⟨key, found⟩ hx rfl
      rw [← h.held, hg] at hx
      cases hx
    have hn : ∀ handout ∈ run.handouts, handout.2.number ≠ entry.number := by
      intro handout hx
      exact hnumber ▸ (h.number_lt handout hx).ne
    rw [hm]
    exact h.shared.concat ht hn

theorem Faithful.perform {run : CacheRun α} (h : run.Faithful) (call : CacheCall α) :
    (run.perform call).Faithful := by
  cases call with
  | request readTerm text =>
    cases hg : run.cache.get? text with
    | some entry =>
      rw [perform_request_of_held hg]
      exact h.again hg rfl (.inr rfl)
    | none =>
      cases hr : (parseRecalling run.cache.allowed readTerm text).result with
      | ok spec =>
        rw [perform_request_of_read hg hr]
        exact h.insert hg spec _
      | error error =>
        rw [perform_request_of_refused hg hr]
        exact h.nothing rfl rfl
  | get text =>
    rw [CacheRun.perform]
    cases hg : run.cache.get? text with
    | some entry => exact h.again hg rfl (.inl rfl)
    | none => exact h.nothing rfl rfl
  | clear => exact h.clear

theorem faithful_ofCalls (allowed : AllowedOperators) (calls : List (CacheCall α)) :
    (ofCalls allowed calls).Faithful :=
  List.foldlRecOn calls CacheRun.perform (faithful_start allowed) fun _ h call _ => h.perform call

/-- Two entries handed out in a run are the same if and only if they were handed out for the same
text and the cache was not cleared in between. -/
theorem Faithful.handedOut {run : CacheRun α} (h : run.Faithful) {us vs ws : List (CacheEvent α)}
    {x y : CacheEvent α} (hl : run.log = us ++ x :: (vs ++ y :: ws)) {text₁ text₂ : String}
    {entry₁ entry₂ : Entry α} (hx : x.handedOut? = some (text₁, entry₁))
    (hy : y.handedOut? = some (text₂, entry₂)) :
    (entry₁ = entry₂ ↔ text₁ = text₂ ∧ .cleared ∉ vs) ∧
      (entry₁.number = entry₂.number ↔ entry₁ = entry₂) := by
  have hc := clearings_eq_zero_of_isCleared (isCleared_eq_false_of_handedOut? hx)
  have hh : run.handouts =
      CacheEvent.handouts 0 us ++ ((clearings us, text₁), entry₁) ::
        (CacheEvent.handouts (clearings us) vs ++
          ((clearings us + clearings vs, text₂), entry₂) ::
            CacheEvent.handouts (clearings us + clearings vs + clearings [y]) ws) := by
    simp [handouts, hl, handouts_append, CacheEvent.handouts, hx, hy, hc]
  obtain ⟨hkeys, hnumbers⟩ :=
    h.shared ((clearings us, text₁), entry₁) (by simp [hh])
      ((clearings us + clearings vs, text₂), entry₂) (by simp [hh])
  rw [← clearings_eq_zero_iff]
  grind

/-- However a cache was used, what it does next is told by the requests that succeeded since it was
cleared last. -/
theorem perform_ofCalls (allowed : AllowedOperators) (calls : List (CacheCall α)) :
    let run := ofCalls allowed calls
    (∀ readTerm text entry, run.successes.lookup text = some entry →
      run.perform (.request readTerm text) =
        run.note run.cache (.requested text (.ok entry) [])) ∧
    (∀ readTerm text, run.successes.lookup text = none →
      let outcome := parseRecalling allowed readTerm text
      (∀ spec, outcome.result = .ok spec → ∃ cache entry, entry.spec = spec ∧
        run.perform (.request readTerm text) =
          run.note cache (.requested text (.ok entry) outcome.shown) ∧
        ∀ other, cache.get? other =
          if text = other then some entry else run.cache.get? other) ∧
      ∀ error, outcome.result = .error error →
        run.perform (.request readTerm text) =
          run.note run.cache (.requested text (.error error) outcome.shown)) ∧
    (∀ text, run.cache.get? text = run.successes.lookup text ∧
      run.perform (.get text) =
        run.note run.cache (.got text (run.successes.lookup text))) ∧
    run.cache.size = (run.successes.map Prod.fst).toFinset.card ∧
    ∀ us x vs y ws text₁ entry₁ text₂ entry₂, run.log = us ++ x :: (vs ++ y :: ws) →
      x.handedOut? = some (text₁, entry₁) → y.handedOut? = some (text₂, entry₂) →
      (entry₁ = entry₂ ↔ text₁ = text₂ ∧ .cleared ∉ vs) ∧
        (entry₁.number = entry₂.number ↔ entry₁ = entry₂) := by
  intro run
  have hf : run.Faithful := faithful_ofCalls allowed calls
  have ha : run.cache.allowed = allowed := allowed_ofCalls allowed calls
  refine ⟨?_, ?_, ?_, hf.size_eq, ?_⟩
  · intro readTerm text entry hs
    exact perform_request_of_held ((hf.get?_eq text).trans hs)
  · intro readTerm text hs
    have hg := (hf.get?_eq text).trans hs
    rw [← ha]
    constructor
    · intro spec hr
      refine ⟨_, _, ?_, perform_request_of_read hg hr, (run.cache.get?_insert text · spec)⟩
      rw [Cache.insert_of_missing hg]
    · intro error hr
      exact perform_request_of_refused hg hr
  · intro text
    rw [CacheRun.perform, hf.get?_eq]
    exact ⟨rfl, rfl⟩
  · intro us x vs y ws text₁ entry₁ text₂ entry₂ hl hx hy
    exact hf.handedOut hl hx hy

def rereading : List (CacheCall String) :=
  [.request (fun _ => .ok) "a", .clear, .request (fun _ => .ok) "a",
    .request (fun _ _ => .error "late") "a", .request (fun _ => .ok) "( a"]

/-- The second reading of `a` is kept, whatever later readers make of it. -/
theorem perform_rereading :
    let run := ofCalls .default rereading
    let spec : Spec String := ⟨[.term "a"], false⟩
    (∀ readTerm, run.perform (.request readTerm "a") =
      run.note run.cache (.requested "a" (.ok ⟨1, spec⟩) [])) ∧
    (∃ cache entry, entry.spec = ⟨[.term "b"], false⟩ ∧
      run.perform (.request (fun _ => .ok) "b") =
        run.note cache (.requested "b" (.ok entry) ["b"]) ∧
      cache.get? "a" = some ⟨1, spec⟩ ∧ cache.get? "b" = some entry) ∧
    run.perform (.request (fun _ _ => .error "late") "b") =
      run.note run.cache (.requested "b" (.error ⟨"b", .rejected "b" "late"⟩) ["b"]) ∧
    run.perform (.get "a") = run.note run.cache (.got "a" (some ⟨1, spec⟩)) ∧
    run.cache.size = 1 ∧ (⟨0, spec⟩ : Entry String) ≠ ⟨1, spec⟩ := by
  intro run spec
  have ha : ∀ allowed, parseRecalling allowed (fun _ => .ok) "a" = ⟨.ok spec, ["a"]⟩ :=
    fun _ => rfl
  have hopen : ∀ allowed, (parseRecalling allowed (fun _ => .ok) "( a" : Outcome _ String) =
      ⟨.error ⟨"( a", .grammar .unbalanced (some "(")⟩, ["a"]⟩ :=
    fun _ => rfl
  have hlog : run.log =
      [.requested "a" (.ok ⟨0, spec⟩) ["a"], .cleared, .requested "a" (.ok ⟨1, spec⟩) ["a"],
        .requested "a" (.ok ⟨1, spec⟩) [],
        .requested "( a" (.error ⟨"( a", .grammar .unbalanced (some "(")⟩) ["a"]] := by
    simp only [run, ofCalls, rereading, start, List.foldl_cons, List.foldl_nil, perform, note,
      Cache.requestRecalling, Cache.store, Cache.get?_ofAllowed, Cache.get?_clear,
      Cache.get?_insert, ha, hopen, if_true, String.reduceEq, if_false]
    rw [Cache.insert_of_missing (Cache.get?_clear _ _),
      Cache.insert_of_missing (Cache.get?_ofAllowed _ _)]
    rfl
  have hs : run.successes = [("a", ⟨1, spec⟩), ("a", ⟨1, spec⟩)] := by
    rw [successes, hlog]
    rfl
  obtain ⟨hheld, hread, hgot, hsize, hsame⟩ := perform_ofCalls .default rereading
  have hb := hread (fun _ => .ok) "b" (by rw [hs]; rfl)
  refine ⟨fun readTerm => hheld readTerm "a" _ (by rw [hs]; rfl), ?_, ?_, ?_, ?_, ?_⟩
  · obtain ⟨cache, entry, hentry, hperform, hget⟩ := hb.1 _ rfl
    refine ⟨cache, entry, hentry, hperform, ?_, ?_⟩
    · rw [hget, (hgot "a").1, hs]
      rfl
    · rw [hget, if_pos rfl]
  · exact (hread (fun _ _ => .error "late") "b" (by rw [hs]; rfl)).2 _ rfl
  · rw [(hgot "a").2, hs]
    rfl
  · rw [hsize, hs]
    rfl
  · intro he
    have hc := (hsame [] _ [.cleared] _ _ "a" _ "a" _ hlog rfl rfl).1.mp he
    exact hc.2 (by simp)

end CacheRun

end DepSpec
