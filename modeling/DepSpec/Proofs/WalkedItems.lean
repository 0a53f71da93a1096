import DepSpec.Walk
import DepSpec.Proofs.KnownFlags
import DepSpec.Proofs.WellFormedness

/-! Walks against the plain recursions. Asked again and again, a walk tells the terms of its items
in their order and then no more, from wherever it has come to. The walk to the first conditional
ends and finds one if there is any. -/

namespace DepSpec

variable {α : Type}

namespace Walk

theorem wellFounded_nextTerm :
    WellFounded fun later walk : Walk α => ∃ value, walk.nextTerm = (some value, later) :=
  Subrelation.wf (fun ⟨_, h⟩ => length_terms_lt h)
    (measure fun walk : Walk α => (termsOfItems walk.ahead).length).wf

theorem collect_after (items : List (Item α)) (k : Nat) :
    ((start items).after k).collect = (termsOfItems items).drop k := by
  rw [collect_eq, terms_after, ahead_start]

theorem collect_start (items : List (Item α)) : (start items).collect = termsOfItems items := by
  rw [collect_eq, ahead_start]

/-- Once a walk has no term, it has none however often it is asked. -/
theorem nextTerm_after_eq_none {walk : Walk α} (h : walk.nextTerm.1 = none) (k : Nat) :
    (walk.after k).nextTerm.1 = none := by
  rw [fst_nextTerm_after, terms_eq_nil h, List.getElem?_nil]

theorem meetsConditional_start_iff {items : List (Item α)} :
    (start items).meetsConditional = true ↔
      ∃ test members, Occurs items (.group (.when test) members) := by
  rw [meetsConditional_eq, ahead_start, Bool.not_eq_true', List.isEmpty_eq_false_iff_exists_mem]
  simp only [mem_testsOfItems_iff_occurs]

/-- Each answer comes after finitely many turns, and finitely many answers are terms. They are those
of the recursion in the same order, from the start as from where the walk has come to, and those of
one list after those of another. Whatever a session makes has a term. The walk to the first
conditional ends, and finds one if some item at whatever depth is one. -/
theorem collect_and_meetsConditional_recursive (α : Type) :
    (WellFounded fun later walk : Walk α => walk.termTurn = .goOn later) ∧
    (WellFounded fun later walk : Walk α => ∃ value, walk.nextTerm = (some value, later)) ∧
    (∀ items : List (Item α), (start items).collect = termsOfItems items ∧
      ∀ k, ((start items).after k).collect = (termsOfItems items).drop k ∧
        ((start items).after k).nextTerm.1 = (termsOfItems items)[k]?) ∧
    (∀ walk : Walk α, walk.nextTerm.1 = none → ∀ k, (walk.after k).nextTerm.1 = none) ∧
    (∀ xs ys : List (Item α),
      (start (xs ++ ys)).collect = (start xs).collect ++ (start ys).collect) ∧
    (∀ spec : Spec α, spec.terms = (start spec.items).collect) ∧
    (∀ tour : Tour α, tour.nextTerm?.map Prod.fst = (ofTour tour).nextTerm.1) ∧
    (∀ (operations : List (Operation α)), ∀ item ∈ (Session.run operations).items,
      (start [item]).collect ≠ []) ∧
    (WellFounded fun later walk : Walk α => walk.conditionalTurn = .goOn later) ∧
    ∀ items : List (Item α),
      ((start items).meetsConditional = true ↔
        ∃ test members, Occurs items (.group (.when test) members)) ∧
      (Spec.ofItems items).conditional = (start items).meetsConditional := by
  refine ⟨termLoop.wellFounded, wellFounded_nextTerm,
    fun items => ⟨collect_start items, fun k => ⟨collect_after items k, ?_⟩⟩,
    fun walk => nextTerm_after_eq_none, fun xs ys => ?_, fun spec => ?_,
    fun tour => (fst_nextTerm_ofTour tour).symm, fun operations item hi => ?_,
    conditionalLoop.wellFounded, fun items => ⟨meetsConditional_start_iff, ?_⟩⟩
  · rw [fst_nextTerm_after, ahead_start]
  · simp only [collect_start, termsOfItems_append]
  · rw [collect_start, Spec.terms_eq_termsOfItems]
  · have hw := (Session.wellFormed_run operations).items item hi
    simpa [collect_start, termsOfItems] using hw.terms_ne_nil
  · rw [Spec.conditional_ofItems, meetsConditional_eq, ahead_start]

/-- The conditional is in a group, and an empty group stands before the last term. -/
theorem collect_and_meetsConditional_nestedItems :
    let guarded : Item String := .group (.when ⟨"x", true⟩) [.term "b", .term "c"]
    let items := [.term "a", .group .anyOf [guarded], .group .allOf [], .term "d"]
    let both : Item String := .group .anyOf [.term "a", .term "a"]
    (start items).collect = ["a", "b", "c", "d"] ∧
      ((start items).after 2).collect = ["c", "d"] ∧
      ((start items).after 3).nextTerm.1 = some "d" ∧
      ((start items).after 4).nextTerm.1 = none ∧
      (((start items).after 4).after 7).nextTerm.1 = none ∧
      (start (items ++ [both])).collect = ["a", "b", "c", "d", "a", "a"] ∧
      both ∈ (Session.run [.term "a", .anyOf [0, 0]]).items ∧ (start [both]).collect ≠ [] ∧
      (start items).meetsConditional = true := by
  intro guarded items both
  obtain ⟨-, -, hwalk, hnone, happend, -, -, hmade, -, hmeets⟩ :=
    collect_and_meetsConditional_recursive String
  obtain ⟨hcollect, hafter⟩ := hwalk items
  have hend : ((start items).after 4).nextTerm.1 = none := (hafter 4).2
  have hboth : both ∈ (Session.run [.term "a", .anyOf [0, 0]]).items :=
    List.mem_cons_of_mem _ List.mem_cons_self
  have ho : Occurs items guarded :=
    .inside (List.mem_cons_of_mem _ List.mem_cons_self) (.of_mem List.mem_cons_self)
  refine ⟨hcollect, (hafter 2).1, (hafter 3).2, hend, hnone _ hend 7, ?_, hboth,
    hmade _ both hboth, (hmeets items).1.mpr ⟨_, _, ho⟩⟩
  rw [happend, hcollect, (hwalk [both]).1]
  rfl

end Walk

end DepSpec
