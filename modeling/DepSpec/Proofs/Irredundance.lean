import DepSpec.Places
import DepSpec.Reduction
import DepSpec.Proofs.UniqueNormalForm

/-! What the stack leaves of a specification without conditionals, of which evaluation leaves
everything. The terms are the same and so is what is asked for. The items are the same if none of
the groups is redundant. -/

namespace DepSpec

variable {α : Type}

/-- Every group has two members or more, and conjunctions are in any-of groups only. -/
structure Irredundant (anyOf : Bool) (items : List (Item α)) : Prop where
  two_le : ∀ head members, Occurs items (.group head members) → 2 ≤ members.length
  not_mem : anyOf = false → ∀ members, .group .allOf members ∉ items
  not_mem_members : ∀ head members, Occurs items (.group head members) →
    head.isAnyOf = false → ∀ inner, .group .allOf inner ∉ members

namespace Irredundant

variable {anyOf : Bool} {items : List (Item α)}

theorem members {head : Head} {members : List (Item α)} (h : Irredundant anyOf items)
    (hm : Item.group head members ∈ items) : Irredundant head.isAnyOf members where
  two_le inner found ho := h.two_le inner found (ho.inside hm)
  not_mem := h.not_mem_members head members (.of_mem hm)
  not_mem_members inner found ho := h.not_mem_members inner found (ho.inside hm)

theorem not_simplifies {next : List (Item α)} (h : Irredundant anyOf items) :
    ¬ Simplifies anyOf items next := by
  intro hs
  induction hs with
  | delete xs ys head =>
    have hl := h.two_le head [] (.of_mem (by simp))
    simp at hl
  | replace xs ys head member =>
    have hl := h.two_le head [member] (.of_mem (by simp))
    simp at hl
  | splice xs ys members => exact h.not_mem rfl members (by simp)
  | inside xs ys head hs ih => exact ih (h.members (by simp))

end Irredundant

theorem NormalItems.irredundant {anyOf : Bool} {items : List (Item α)}
    (h : NormalItems anyOf items) : Irredundant anyOf items := by
  have hg : ∀ head members, Occurs items (.group head members) →
      2 ≤ members.length ∧ NormalItems head.isAnyOf members := by
    intro head members ho
    obtain ⟨inAnyOf, hn⟩ := ho.hereditary (p := fun item => ∃ inAnyOf, item.Normal inAnyOf)
      (fun item hi => ⟨anyOf, normalItems_iff.mp h item hi⟩)
      fun head _ hn member hm => ⟨head.isAnyOf, normalItems_iff.mp hn.choose_spec.members.2 _ hm⟩
    exact hn.members
  have hc : ∀ {inAnyOf : Bool} {found members : List (Item α)}, NormalItems inAnyOf found →
      inAnyOf = false → .group .allOf members ∉ found := by
    intro inAnyOf found members hn hb hm
    have hi := normalItems_iff.mp hn _ hm
    rw [Item.Normal, hb] at hi
    exact absurd hi.1 (by simp)
  exact ⟨fun head members ho => (hg head members ho).1, fun hb members => hc h hb,
    fun head members ho hb inner => hc (hg head members ho).2 hb⟩

theorem normalItems_iff_irredundant {anyOf : Bool} {items : List (Item α)}
    (ht : testsOfItems items = []) : NormalItems anyOf items ↔ Irredundant anyOf items := by
  refine ⟨NormalItems.irredundant, fun h => ?_⟩
  rcases normalItems_or_simplifies anyOf items ht with hn | ⟨next, hs⟩
  · exact hn
  · exact absurd hs h.not_simplifies

theorem irredundant_iff {items : List (Item α)} (hw : WellFormedItems items)
    (ht : testsOfItems items = []) :
    Irredundant false items ↔
      (∀ head member, ¬ Occurs items (.group head [member])) ∧
        (∀ members, .group .allOf members ∉ items) ∧
        ∀ members inner, Occurs items (.group .allOf members) → .group .allOf inner ∉ members := by
  constructor
  · intro h
    refine ⟨fun head member ho => ?_, h.not_mem rfl,
      fun members inner ho => h.not_mem_members .allOf members ho rfl inner⟩
    have hl := h.two_le head [member] ho
    simp at hl
  · rintro ⟨hs, hn, hi⟩
    refine ⟨fun head members ho => ?_, fun _ => hn, fun head members ho hb inner => ?_⟩
    · have hg : (Item.group head members).WellFormed :=
        ho.hereditary (wellFormedItems_iff.mp hw) fun _ _ hg => wellFormedItems_iff.mp hg.2
      match members, hg.1 with
      | [member], _ => exact absurd ho (hs head member)
      | _ :: _ :: _, _ => simp
    · cases head with
      | allOf => exact hi members inner ho
      | anyOf => simp [Head.isAnyOf] at hb
      | when test =>
        have hsub := ho.tests_subset
        simp [ht, Item.tests, Head.test?] at hsub

namespace Spec

variable {spec : Spec α}

theorem reduced_reduced (selection later : FlagSelection) (spec : Spec α) :
    (spec.reduced selection).reduced later = spec.reduced selection := by
  have hn := normal_collapsedMembers selection.passes false spec.items
  rw [reduced_eq, reduced_eq, NormalItems.collapsed_eq _ hn]

theorem items_reduced_eq_iff (selection : FlagSelection) (spec : Spec α) :
    (spec.reduced selection).items = spec.items ↔ NormalItems false spec.items := by
  rw [reduced_eq]
  constructor
  · intro h
    rw [← h]
    exact normal_collapsedMembers selection.passes false spec.items
  · exact NormalItems.collapsed_eq spec.items

theorem reduced_eq_self_iff (hc : spec.conditional = false) (selection : FlagSelection) :
    spec.reduced selection = spec ↔ NormalItems false spec.items := by
  rw [← items_reduced_eq_iff selection spec]
  obtain ⟨items, conditional⟩ := spec
  obtain rfl : conditional = false := hc
  simp [reduced]

theorem WellFormed.terms_reduced (hw : spec.WellFormed) (selection : FlagSelection) :
    (spec.reduced selection).terms = (spec.evaluate selection).terms := by
  rw [hw.terms_evaluate, reduced_eq, terms_eq_termsOfItems, terms_collapsedMembers]

theorem WellFormed.presentTruth_reduced (hw : spec.WellFormed) (selection later : FlagSelection)
    (satisfied : α → Bool) :
    (spec.reduced selection).presentTruth later satisfied =
      (spec.evaluate selection).presentTruth later satisfied := by
  by_cases hc : spec.conditional = true
  · rw [evaluate_eq_reduced hc]
  · have ht := hw.testsOfItems_eq_nil (by simpa using hc)
    rw [evaluate, if_neg hc, presentTruth, presentTruth, truth, truth, reduced_eq,
      truth_collapsedMembers]
    exact truthOfItems_congr satisfied false spec.items (by simp [ht])

/-- With conditionals, evaluation is what the stack leaves. Without, the stack is not run; it would
leave the same terms, and ask for the same, but leave the same items only if no group has a single
member and no conjunction is at the top or in a conjunction. Run again, it changes nothing. -/
theorem reduced_agrees_with_evaluate (selection : FlagSelection) (spec : Spec α)
    (hw : spec.WellFormed) :
    (spec.conditional = true → spec.evaluate selection = spec.reduced selection) ∧
      (spec.reduced selection).terms = (spec.evaluate selection).terms ∧
      (∀ (later : FlagSelection) (satisfied : α → Bool),
        (spec.reduced selection).presentTruth later satisfied =
          (spec.evaluate selection).presentTruth later satisfied) ∧
      (∀ later : FlagSelection, (spec.reduced selection).reduced later = spec.reduced selection) ∧
      (spec.conditional = false →
        (spec.reduced selection = spec ↔
          (∀ head member, ¬ Occurs spec.items (.group head [member])) ∧
            (∀ members, .group .allOf members ∉ spec.items) ∧
            ∀ members inner, Occurs spec.items (.group .allOf members) →
              .group .allOf inner ∉ members)) := by
  refine ⟨fun hc => evaluate_eq_reduced hc selection, hw.terms_reduced selection,
    hw.presentTruth_reduced selection, fun later => reduced_reduced selection later spec,
    fun hc => ?_⟩
  have ht := hw.testsOfItems_eq_nil hc
  rw [reduced_eq_self_iff hc, normalItems_iff_irredundant ht, irredundant_iff hw.1 ht]

end Spec

/-- A conjunction at the top with an any-of group of one member. -/
def redundantSpec : Spec String :=
  .ofItems [.group .allOf [.term "a", .group .anyOf [.term "b"]]]

theorem Spec.reduced_redundantSpec_ne :
    redundantSpec.WellFormed ∧ redundantSpec.conditional = false ∧
      redundantSpec.evaluate ⟨["x"], none⟩ = redundantSpec ∧
      redundantSpec.reduced ⟨["x"], none⟩ = ⟨[.term "a", .term "b"], false⟩ ∧
      (redundantSpec.reduced ⟨["x"], none⟩).terms = redundantSpec.terms ∧
      redundantSpec.reduced ⟨["x"], none⟩ ≠ redundantSpec := by
  have hw : redundantSpec.WellFormed :=
    Spec.wellFormed_ofItems (by simp [WellFormedItems, Item.WellFormed])
  have hc : redundantSpec.conditional = false := conditional_ofItems _
  have he : redundantSpec.evaluate ⟨["x"], none⟩ = redundantSpec := by simp [evaluate, hc]
  obtain ⟨-, ht, -, -, hf⟩ := reduced_agrees_with_evaluate ⟨["x"], none⟩ redundantSpec hw
  refine ⟨hw, hc, he, reduced_eq _ _, by rw [ht, he], fun h => ?_⟩
  exact ((hf hc).mp h).2.1 _ (List.mem_singleton.mpr rfl)

end DepSpec
