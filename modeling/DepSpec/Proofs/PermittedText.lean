import DepSpec.Proofs.FlatViews
import DepSpec.Proofs.ForbiddenOperators
import DepSpec.Proofs.WellFormedness

/-! Neither writing nor evaluating introduces an operator. What was read with some operators is
written with these, and what evaluation leaves of it is written without flags; without any-of groups
evaluation leaves terms alone. -/

namespace DepSpec

variable {α : Type} {allowed : AllowedOperators}

mutual

theorem Item.heads_flattened_subset (inAnyOf : Bool) (item : Item α) :
    headsOfItems (item.flattened inAnyOf) ⊆ item.heads := by
  match item with
  | .term value => exact List.Subset.refl _
  | .group .allOf members =>
    have hm := headsOfItems_flattenedItems_subset false members
    cases inAnyOf with
    | false => exact List.Subset.trans hm (List.subset_cons_self Head.allOf _)
    | true =>
      simpa [Item.flattened, headsOfItems, Item.heads] using List.cons_subset_cons .allOf hm
  | .group .anyOf members =>
    have hm := headsOfItems_flattenedItems_subset true members
    simpa [Item.flattened, headsOfItems, Item.heads] using List.cons_subset_cons .anyOf hm
  | .group (.when test) members =>
    have hm := headsOfItems_flattenedItems_subset false members
    simpa [Item.flattened, headsOfItems, Item.heads] using List.cons_subset_cons (.when test) hm

theorem headsOfItems_flattenedItems_subset (inAnyOf : Bool) (items : List (Item α)) :
    headsOfItems (flattenedItems inAnyOf items) ⊆ headsOfItems items := by
  match items with
  | [] => exact List.Subset.refl _
  | item :: items =>
    rw [flattenedItems, headsOfItems_append, headsOfItems]
    exact List.append_subset.mpr
      ⟨List.subset_append_of_subset_left _ (Item.heads_flattened_subset inAnyOf item),
        List.subset_append_of_subset_right _ (headsOfItems_flattenedItems_subset inAnyOf items)⟩

end

theorem headsOfItems_residue {outerAnyOf anyOf : Bool} {head : Head} {items : List (Item α)}
    (h : head ∈ headsOfItems (residue outerAnyOf anyOf items)) :
    head = .allOf ∨ (anyOf = true ∧ head = .anyOf) ∨ head ∈ headsOfItems items := by
  match items with
  | [] => simp [residue, headsOfItems] at h
  | [.term value] => simp [residue, headsOfItems, Item.heads] at h
  | [.group .allOf members] =>
    cases outerAnyOf <;> simp_all [residue, headsOfItems, Item.heads]
  | [.group .anyOf members] => exact .inr (.inr h)
  | [.group (.when test) members] => exact .inr (.inr h)
  | x :: y :: items =>
    cases outerAnyOf <;> cases anyOf <;> simp_all [residue, headsOfItems, Item.heads]

mutual

theorem Item.heads_collapsed {passes : FlagTest → Bool} {anyOf : Bool} {head : Head}
    (item : Item α) (h : head ∈ headsOfItems (item.collapsed passes anyOf)) :
    head = .allOf ∨ head ∈ item.heads := by
  match item with
  | .term value => exact .inr h
  | .group outer members =>
    rw [Item.collapsed] at h
    split at h
    · rcases headsOfItems_residue h with h | ⟨ha, rfl⟩ | h
      · exact .inl h
      · -- an any-of group is left only of an any-of group
        cases outer <;> simp_all [Head.isAnyOf, Item.heads]
      · exact (headsOfItems_collapsedMembers members h).imp_right (List.mem_cons_of_mem outer)
    · simp [headsOfItems] at h

theorem headsOfItems_collapsedMembers {passes : FlagTest → Bool} {anyOf : Bool} {head : Head}
    (items : List (Item α)) (h : head ∈ headsOfItems (collapsedMembers passes anyOf items)) :
    head = .allOf ∨ head ∈ headsOfItems items := by
  match items with
  | [] => exact .inr h
  | item :: items =>
    rw [collapsedMembers, headsOfItems_append] at h
    rw [headsOfItems]
    rcases List.mem_append.mp h with h | h
    · exact (Item.heads_collapsed item h).imp_right (List.mem_append_left _)
    · exact (headsOfItems_collapsedMembers items h).imp_right (List.mem_append_right _)

end

theorem PermittedItems.flattened {items : List (Item α)} (h : PermittedItems allowed items)
    (inAnyOf : Bool) : PermittedItems allowed (flattenedItems inAnyOf items) := by
  rw [permittedItems_iff_heads] at *
  exact fun head hm => h head (headsOfItems_flattenedItems_subset inAnyOf items hm)

theorem PermittedItems.collapse {items : List (Item α)} (h : PermittedItems allowed items)
    (passes : FlagTest → Bool) : PermittedItems allowed (collapse passes items) := by
  rw [collapse_eq_collapsedMembers, permittedItems_iff_heads] at *
  intro head hm
  rcases headsOfItems_collapsedMembers items hm with rfl | hm
  · rfl
  · exact h head hm

theorem NormalItems.eq_map_term {items : List (Item α)} (h : NormalItems false items)
    (hp : .anyOf ∉ headsOfItems items) : items = (termsOfItems items).map .term := by
  induction items with
  | nil => rfl
  | cons item items ih =>
    rw [NormalItems] at h
    rw [headsOfItems, List.mem_append, not_or] at hp
    have hr := ih h.2 hp.2
    -- besides terms only any-of groups stand at the top of what is in normal form
    match item with
    | .term value =>
      rw [termsOfItems, Item.terms, List.singleton_append, List.map_cons, ← hr]
    | .group .allOf members => simp [Item.Normal] at h
    | .group .anyOf members => simp [Item.heads] at hp
    | .group (.when test) members => simp [Item.Normal] at h

theorem wellFormed_of_parseWords {text : String} {spec : Spec String}
    (h : parseWords allowed text = .ok spec) : spec.WellFormed :=
  wellFormed_of_parseRecalling h

namespace Spec

theorem Legible.evaluate {text : α → String} {spec : Spec α} (h : spec.Legible text)
    (selection : FlagSelection) : (spec.evaluate selection).Legible text := by
  by_cases hc : spec.conditional = true
  · exact legible_evaluate hc (fun value hv => h.terms value (terms_eq_termsOfItems spec ▸ hv))
      selection
  · rwa [Spec.evaluate, if_neg hc]

theorem permittedItems_evaluate {spec : Spec α} (h : PermittedItems allowed spec.items)
    (selection : FlagSelection) : PermittedItems allowed (spec.evaluate selection).items := by
  unfold evaluate
  split
  · exact h.collapse selection.passes
  · exact h

theorem Legible.parseWords_text {spec : Spec String} (h : spec.Legible id) (hw : spec.WellFormed)
    (hp : PermittedItems allowed spec.items) :
    parseWords allowed spec.text = .ok spec.flattened := by
  have hr := h.parseText_text hw
  rw [parseText, parseWords_eq_ok_iff] at hr
  exact parseWords_eq_ok_iff.mpr
    ⟨(Derives.iff_permitted _).mpr ⟨hr.1, hp.flattened false⟩, hr.2⟩

/-- What is read with some operators is also written with these. What evaluation leaves of it is
written without flags; it is a list of terms if any-of groups were not allowed and a conditional
was evaluated. -/
theorem parseWords_text_of_parseWords (allowed : AllowedOperators) (text : String)
    (spec : Spec String) (h : parseWords allowed text = .ok spec) :
    parseWords allowed spec.text = .ok spec.flattened ∧
      ∀ selection : FlagSelection,
        parseWords { allowed with conditional := false } (spec.evaluate selection).text =
            .ok (spec.evaluate selection).flattened ∧
          (allowed.anyOf = false → spec.conditional = true →
            (spec.evaluate selection).items =
              (survivorsOfItems selection.passes spec.items).map .term) := by
  obtain ⟨hd, -⟩ := parseWords_eq_ok_iff.mp h
  have hp : PermittedItems allowed spec.items := ((Derives.iff_permitted _).mp hd).2
  have hl : spec.Legible id := legible_of_parseWords h
  have hw : spec.WellFormed := wellFormed_of_parseWords h
  refine ⟨hl.parseWords_text hw hp, fun selection => ⟨?_, fun ha hc => ?_⟩⟩
  · have he := hw.evaluate selection
    have ht := he.testsOfItems_eq_nil (conditional_evaluate selection spec)
    have hq := permittedItems_evaluate hp selection
    exact (hl.evaluate selection).parseWords_text he
      ((permittedItems_withoutConditional _).mpr ⟨hq, ht⟩)
  · have hn := normalItems_evaluate hc selection
    have hany := (permittedItems_iff.mp (permittedItems_evaluate hp selection)).1 ha
    rw [hn.eq_map_term hany, ← terms_eq_termsOfItems, hw.terms_evaluate]

theorem parseWords_text_sourceSpec :
    let allowed := AllowedOperators.forKey .srcUri
    let spec : Spec String :=
      ⟨[.group .allOf [.term "a", .group (.when ⟨"x", true⟩) [.term "b"]],
        .group (.when ⟨"y", false⟩) [.group .allOf [.term "c", .term "d"]]], true⟩
    parseWords allowed "( a !x? ( b ) ) y? ( ( c d ) )" = .ok spec ∧
      parseWords allowed spec.text = .ok spec.flattened ∧
      parseWords ⟨false, false⟩ (spec.evaluate ⟨["x", "y"], none⟩).text =
        .ok (spec.evaluate ⟨["x", "y"], none⟩).flattened ∧
      (spec.evaluate ⟨["x", "y"], none⟩).items = [.term "a", .term "c", .term "d"] := by
  intro allowed spec
  have h : parseWords allowed "( a !x? ( b ) ) y? ( ( c d ) )" = .ok spec := rfl
  obtain ⟨ht, he⟩ := parseWords_text_of_parseWords allowed _ spec h
  obtain ⟨hp, hi⟩ := he ⟨["x", "y"], none⟩
  exact ⟨h, ht, hp, (hi rfl rfl).trans rfl⟩

end Spec

end DepSpec
