import DepSpec.NormalForm
import DepSpec.Proofs.FlatEvaluation
import DepSpec.Proofs.ForbiddenOperators
import Mathlib.Logic.Relation

/-! Simplifying step by step. What items collapse to is kept by every step, each step takes one
group away, and items that allow no step are in normal form. So all orders of simplifying pruned
items end, and with what evaluation leaves. -/

namespace DepSpec

variable {α : Type}

theorem Head.passes_always (head : Head) : head.passes (fun _ => true) = true := by
  cases head <;> rfl

/-- What a group leaves in the only place of another one is what it leaves around that. -/
theorem residue_residue {outerAnyOf anyOf inner : Bool} {items : List (Item α)}
    (h : NormalItems inner items) :
    residue outerAnyOf anyOf (residue anyOf inner items) = residue outerAnyOf inner items := by
  match items with
  | [] => rfl
  | [.term value] => rfl
  | [.group .allOf members] =>
    simp only [NormalItems, Item.Normal, and_true] at h
    cases anyOf with
    | false =>
      have hr : residue outerAnyOf false members = _ := residue_of_two_le h.2.1
      simpa [residue] using hr
    | true => simp [residue]
  | [.group .anyOf members] => rfl
  | [.group (.when test) members] => rfl
  | _ :: _ :: _ => cases inner <;> cases anyOf <;> cases outerAnyOf <;> simp [residue]

theorem Item.residue_collapsed (passes : FlagTest → Bool) (outerAnyOf anyOf : Bool)
    (item : Item α) :
    residue outerAnyOf anyOf (item.collapsed passes anyOf) = item.collapsed passes outerAnyOf := by
  cases item with
  | term value => rfl
  | group head members =>
    rw [Item.collapsed, Item.collapsed]
    split
    · exact residue_residue (normal_collapsedMembers passes _ members)
    · rfl

namespace Simplifies

variable {anyOf : Bool} {ms ns : List (Item α)}

theorem collapsedMembers_eq (h : Simplifies anyOf ms ns) :
    collapsedMembers (fun _ => true) anyOf ms = collapsedMembers (fun _ => true) anyOf ns := by
  induction h with
  | delete xs ys head =>
    simp [collapsedMembers_append, collapsedMembers, Item.collapsed, residue]
  | replace xs ys head member =>
    simp [collapsedMembers_append, collapsedMembers, Item.collapsed, Head.passes_always,
      Item.residue_collapsed]
  | splice xs ys members =>
    have hn := (normal_collapsedMembers (fun _ => true) false members).residue_eq
    simp [collapsedMembers_append, collapsedMembers, Item.collapsed, Head.passes, Head.isAnyOf, hn]
  | inside xs ys head h ih =>
    simp [collapsedMembers_append, collapsedMembers, Item.collapsed, ih]

theorem length_headsOfItems (h : Simplifies anyOf ms ns) :
    (headsOfItems ms).length = (headsOfItems ns).length + 1 := by
  induction h <;>
    simp only [headsOfItems_append, headsOfItems, Item.heads, List.length_append,
      List.length_cons, List.length_nil] <;>
    omega

theorem testsOfItems_eq_nil (h : Simplifies anyOf ms ns) (ht : testsOfItems ms = []) :
    testsOfItems ns = [] := by
  induction h <;> simp_all [testsOfItems_append, testsOfItems, Item.tests]

theorem not_normalItems (h : Simplifies anyOf ms ns) : ¬ NormalItems anyOf ms := by
  induction h with
  | delete xs ys head =>
    rw [normalItems_append, NormalItems]
    rintro ⟨-, hn, -⟩
    cases head <;> simp [Item.Normal] at hn
  | replace xs ys head member =>
    rw [normalItems_append, NormalItems]
    rintro ⟨-, hn, -⟩
    cases head <;> simp [Item.Normal] at hn
  | splice xs ys members =>
    rw [normalItems_append, NormalItems]
    rintro ⟨-, hn, -⟩
    simp [Item.Normal] at hn
  | inside xs ys head h ih =>
    rw [normalItems_append, NormalItems]
    rintro ⟨-, hn, -⟩
    exact ih hn.members.2

end Simplifies

mutual

theorem Item.normal_or_simplifies (anyOf : Bool) (item : Item α) (ht : item.tests = []) :
    item.Normal anyOf ∨ ∃ next, Simplifies anyOf [item] next := by
  match item with
  | .term value => exact .inl trivial
  | .group head [] => exact .inr ⟨_, .delete [] [] head⟩
  | .group head [member] => exact .inr ⟨_, .replace [] [] head member⟩
  | .group head (x :: y :: members) =>
    have hm : testsOfItems (x :: y :: members) = [] := by
      rw [Item.tests] at ht
      exact (List.append_eq_nil_iff.mp ht).2
    rcases normalItems_or_simplifies head.isAnyOf (x :: y :: members) hm with hn | ⟨next, hs⟩
    · cases head with
      | allOf =>
        cases anyOf with
        | false => exact .inr ⟨_, .splice [] [] (x :: y :: members)⟩
        | true => exact .inl ⟨rfl, by simp, hn⟩
      | anyOf => exact .inl ⟨by simp, hn⟩
      | when test => simp [Item.tests, Head.test?] at ht
    · exact .inr ⟨_, .inside [] [] head hs⟩

theorem normalItems_or_simplifies (anyOf : Bool) (items : List (Item α))
    (ht : testsOfItems items = []) :
    NormalItems anyOf items ∨ ∃ next, Simplifies anyOf items next := by
  match items with
  | [] => exact .inl trivial
  | item :: items =>
    rw [testsOfItems] at ht
    obtain ⟨hi, hr⟩ := List.append_eq_nil_iff.mp ht
    rcases Item.normal_or_simplifies anyOf item hi with hn | ⟨next, hs⟩
    · rcases normalItems_or_simplifies anyOf items hr with hns | ⟨next, hs⟩
      · exact .inl ⟨hn, hns⟩
      · exact .inr ⟨_, by simpa using hs.around [item] []⟩
    · exact .inr ⟨_, by simpa using hs.around [] items⟩

end

mutual

theorem Item.testsOfItems_pruned (passes : FlagTest → Bool) (item : Item α) :
    testsOfItems (item.pruned passes) = [] := by
  match item with
  | .term value => rfl
  | .group .allOf members =>
    have hm := testsOfItems_prunedItems passes members
    simp [Item.pruned, testsOfItems, Item.tests, Head.test?, hm]
  | .group .anyOf members =>
    have hm := testsOfItems_prunedItems passes members
    simp [Item.pruned, testsOfItems, Item.tests, Head.test?, hm]
  | .group (.when test) members =>
    have hm := testsOfItems_prunedItems passes members
    rw [Item.pruned]
    split <;> simp [testsOfItems, Item.tests, Head.test?, hm]

theorem testsOfItems_prunedItems (passes : FlagTest → Bool) (items : List (Item α)) :
    testsOfItems (prunedItems passes items) = [] := by
  match items with
  | [] => rfl
  | item :: items =>
    rw [prunedItems, testsOfItems_append, Item.testsOfItems_pruned passes item,
      testsOfItems_prunedItems passes items]
    rfl

end

mutual

theorem Item.collapsed_pruned (passes later : FlagTest → Bool) (anyOf : Bool) (item : Item α) :
    collapsedMembers later anyOf (item.pruned passes) = item.collapsed passes anyOf := by
  match item with
  | .term value => rfl
  | .group .allOf members =>
    have hm := collapsedMembers_prunedItems passes later false members
    simp [Item.pruned, collapsedMembers, Item.collapsed, Head.passes, Head.isAnyOf, hm]
  | .group .anyOf members =>
    have hm := collapsedMembers_prunedItems passes later true members
    simp [Item.pruned, collapsedMembers, Item.collapsed, Head.passes, Head.isAnyOf, hm]
  | .group (.when test) members =>
    have hm := collapsedMembers_prunedItems passes later false members
    cases hp : passes test <;>
      simp [Item.pruned, collapsedMembers, Item.collapsed, Head.passes, Head.isAnyOf, hm, hp]

/-- Pruning takes no group away from what is collapsed, whatever passes afterwards. -/
theorem collapsedMembers_prunedItems (passes later : FlagTest → Bool) (anyOf : Bool)
    (items : List (Item α)) :
    collapsedMembers later anyOf (prunedItems passes items) =
      collapsedMembers passes anyOf items := by
  match items with
  | [] => rfl
  | item :: items =>
    rw [prunedItems, collapsedMembers_append, Item.collapsed_pruned passes later anyOf item,
      collapsedMembers_prunedItems passes later anyOf items, collapsedMembers]

end

theorem length_headsOfItems_path {anyOf : Bool} {path : Nat → List (Item α)} {n : Nat}
    (h : ∀ k < n, Simplifies anyOf (path k) (path (k + 1))) :
    (headsOfItems (path n)).length + n = (headsOfItems (path 0)).length := by
  induction n with
  | zero => rfl
  | succ n ih =>
    have hn := ih fun k hk => h k (by omega)
    have hs := (h n (by omega)).length_headsOfItems
    omega

/-- Steps in some order, any number of them. -/
abbrev SimplifiesTo (anyOf : Bool) : List (Item α) → List (Item α) → Prop :=
  Relation.ReflTransGen (Simplifies anyOf)

namespace SimplifiesTo

variable {anyOf : Bool} {ms ns : List (Item α)}

theorem collapsedMembers_eq (h : SimplifiesTo anyOf ms ns) :
    collapsedMembers (fun _ => true) anyOf ms = collapsedMembers (fun _ => true) anyOf ns := by
  induction h with
  | refl => rfl
  | tail _ hs ih => exact ih.trans hs.collapsedMembers_eq

theorem testsOfItems_eq_nil (h : SimplifiesTo anyOf ms ns) (ht : testsOfItems ms = []) :
    testsOfItems ns = [] := by
  induction h with
  | refl => exact ht
  | tail _ hs ih => exact hs.testsOfItems_eq_nil ih

end SimplifiesTo

theorem simplifiesTo_collapsedMembers (anyOf : Bool) (items : List (Item α))
    (ht : testsOfItems items = []) :
    SimplifiesTo anyOf items (collapsedMembers (fun _ => true) anyOf items) := by
  rcases normalItems_or_simplifies anyOf items ht with h | ⟨next, hs⟩
  · rw [NormalItems.collapsed_eq items h]
  · have hl := hs.length_headsOfItems
    rw [hs.collapsedMembers_eq]
    exact (simplifiesTo_collapsedMembers anyOf next (hs.testsOfItems_eq_nil ht)).head hs
termination_by (headsOfItems items).length

namespace Spec

/-- The items with each conditional decided, as they are before anything is simplified. -/
def pruned (selection : FlagSelection) (spec : Spec α) : List (Item α) :=
  prunedItems (fun test => decide (selection.Admits test)) spec.items

theorem evaluate_eq_collapsedMembers_pruned {spec : Spec α} (hc : spec.conditional = true)
    (selection : FlagSelection) :
    spec.evaluate selection =
      ⟨collapsedMembers (fun _ => true) false (spec.pruned selection), false⟩ := by
  rw [evaluate, if_pos hc, collapse_eq_collapsedMembers, pruned, collapsedMembers_prunedItems,
    ← selection.passes_eq_decide]

/-- Whatever step is taken first, and next, simplifying the pruned items of a specification with
conditionals ends after no more steps than there are groups. It can only end with what evaluation
leaves, and from wherever it has got it can go on to that. -/
theorem evaluate_eq_of_simplified (selection : FlagSelection) (spec : Spec α)
    (hc : spec.conditional = true) :
    (∀ path : Nat → List (Item α), path 0 = spec.pruned selection →
        ∃ n ≤ (headsOfItems (spec.pruned selection)).length,
          ¬ Simplifies false (path n) (path (n + 1))) ∧
      ∀ reached, SimplifiesTo false (spec.pruned selection) reached →
        ((∀ next, ¬ Simplifies false reached next) ↔ spec.evaluate selection = ⟨reached, false⟩) ∧
          SimplifiesTo false reached (spec.evaluate selection).items := by
  constructor
  · intro path hp
    -- every step takes away a group, so there are no more steps than groups
    refine Classical.byContradiction fun hn => ?_
    have hs : ∀ k < (headsOfItems (spec.pruned selection)).length + 1,
        Simplifies false (path k) (path (k + 1)) := fun k hk =>
      Classical.byContradiction fun h => hn ⟨k, by omega, h⟩
    have hl := length_headsOfItems_path hs
    rw [hp] at hl
    omega
  · intro reached hr
    -- no step changes what the items collapse to, and normal items collapse to themselves
    have ht : testsOfItems reached = [] :=
      hr.testsOfItems_eq_nil (testsOfItems_prunedItems _ spec.items)
    have he : spec.evaluate selection =
        ⟨collapsedMembers (fun _ => true) false reached, false⟩ := by
      rw [evaluate_eq_collapsedMembers_pruned hc, hr.collapsedMembers_eq]
    refine ⟨⟨fun hn => ?_, fun h next hs => ?_⟩, ?_⟩
    · rcases normalItems_or_simplifies false reached ht with h | ⟨next, hs⟩
      · rw [he, NormalItems.collapsed_eq reached h]
      · exact absurd hs (hn next)
    · have hn := normalItems_evaluate hc selection
      rw [h] at hn
      exact hs.not_normalItems hn
    · rw [he]
      exact simplifiesTo_collapsedMembers false reached ht

/-- The conjunction without a term goes first, then the any-of group gives way to the other one. -/
theorem evaluate_guardedSpec_of_simplified :
    let selection : FlagSelection := ⟨["x"], some ["x"]⟩
    guardedSpec.conditional = true ∧
      guardedSpec.pruned selection =
        [.group .anyOf [.group .allOf [.term "a", .term "b"], .group .allOf []], .term "d"] ∧
      SimplifiesTo false (guardedSpec.pruned selection) [.term "a", .term "b", .term "d"] ∧
      (∀ next, ¬ Simplifies false [.term "a", .term "b", .term "d"] next) ∧
      guardedSpec.evaluate selection = ⟨[.term "a", .term "b", .term "d"], false⟩ := by
  intro selection
  have hc : guardedSpec.conditional = true := conditional_ofItems _
  let both : Item String := .group .allOf [.term "a", .term "b"]
  have hp : guardedSpec.pruned selection =
      [.group .anyOf [both, .group .allOf []], .term "d"] := rfl
  have h₁ : Simplifies false (guardedSpec.pruned selection)
      [.group .anyOf [both], .term "d"] :=
    .inside [] [.term "d"] .anyOf (.delete [both] [] .allOf)
  have h₂ : Simplifies false [.group .anyOf [both], .term "d"] [both, .term "d"] :=
    .replace [] [.term "d"] .anyOf both
  have h₃ : Simplifies false [both, .term "d"] [.term "a", .term "b", .term "d"] :=
    .splice [] [.term "d"] [.term "a", .term "b"]
  have hr : SimplifiesTo false (guardedSpec.pruned selection)
      [.term "a", .term "b", .term "d"] := .head h₁ (.head h₂ (.single h₃))
  have hn : ∀ next, ¬ Simplifies false [.term "a", .term "b", .term "d"] next := fun next hs =>
    hs.not_normalItems (by simp [NormalItems, Item.Normal])
  obtain ⟨-, he⟩ := evaluate_eq_of_simplified selection guardedSpec hc
  exact ⟨hc, hp, hr, hn, (he _ hr).1.mp hn⟩

end Spec

end DepSpec
