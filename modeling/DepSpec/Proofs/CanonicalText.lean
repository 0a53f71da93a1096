import DepSpec.Flattened
import DepSpec.Proofs.RoundTrip

/-! The text of a specification is a canonical form: legible specifications have the same text
exactly if they have the same flat form, and what is read back from a text is written as before. -/

namespace DepSpec

variable {α β : Type}

mutual

theorem Item.parts_map (f : α → β) (text : β → String) (inAnyOf : Bool) (item : Item α) :
    (item.map f).parts text inAnyOf = item.parts (text ∘ f) inAnyOf := by
  match item with
  | .term value => rfl
  | .group head members =>
    rw [Item.map, Item.parts, partsOfItems_mapAll f text _ members, Item.parts]

theorem partsOfItems_mapAll (f : α → β) (text : β → String) (inAnyOf : Bool)
    (items : List (Item α)) :
    partsOfItems text inAnyOf (Item.mapAll f items) = partsOfItems (text ∘ f) inAnyOf items := by
  match items with
  | [] => rfl
  | item :: items =>
    rw [Item.mapAll, partsOfItems, Item.parts_map f text inAnyOf item,
      partsOfItems_mapAll f text inAnyOf items, partsOfItems]

end

namespace Spec

theorem render_map (f : α → β) (text : β → String) (spec : Spec α) :
    (spec.map f).render text = spec.render (text ∘ f) := by
  rw [render, render, parts_eq_partsOfItems, parts_eq_partsOfItems, map_eq, partsOfItems_mapAll]

theorem text_map_flattened (text : α → String) (spec : Spec α) :
    (spec.map text).flattened.text = spec.render text := by
  rw [Spec.text, render_flattened, render_map, Function.id_comp]

theorem Legible.render_eq_render_iff {textA : α → String} {textB : β → String} {a : Spec α}
    {b : Spec β} (ha : a.Legible textA) (hb : b.Legible textB) (hwa : a.WellFormed)
    (hwb : b.WellFormed) :
    a.render textA = b.render textB ↔ (a.map textA).flattened = (b.map textB).flattened := by
  constructor
  · intro h
    -- the common text is read as either flat form
    have hp : parseText (a.render textA) = .ok (b.map textB).flattened := by
      rw [h]
      exact hb.parseText_render hwb
    exact Except.ok.inj ((ha.parseText_render hwa).symm.trans hp)
  · intro h
    calc a.render textA
        = (a.map textA).flattened.text := (text_map_flattened textA a).symm
      _ = (b.map textB).flattened.text := congrArg Spec.text h
      _ = b.render textB := text_map_flattened textB b

/-- Flattening never changes the text, whatever the terms are written as. Among legible
specifications nothing else leaves it unchanged, so reading a text and writing it again restores
it. -/
theorem text_eq_text_iff_flattened_eq :
    (∀ {α : Type} (text : α → String) (spec : Spec α),
        spec.flattened.render text = spec.render text) ∧
      (∀ a b : Spec String, a.WellFormed → b.WellFormed → a.Legible id → b.Legible id →
        (a.text = b.text ↔ a.flattened = b.flattened)) ∧
      ∀ {α : Type} (text : α → String) (spec : Spec α), spec.WellFormed → spec.Legible text →
        ∃ again, parseText (spec.render text) = .ok again ∧ again.text = spec.render text := by
  refine ⟨fun text spec => render_flattened text spec, fun a b hwa hwb ha hb => ?_,
    fun text spec hw hl => ?_⟩
  · have h := ha.render_eq_render_iff hb hwa hwb
    rwa [map_id, map_id] at h
  · exact ⟨_, hl.parseText_render hw, text_map_flattened text spec⟩

/-- The second conjunction of `nestedSpec` is dissolved, the members of its first group are open. -/
def dissolvedSpec (choices : List (Item String)) : Spec String :=
  .ofItems [.group .anyOf choices, .group (.when ⟨"(x", true⟩) [.term "c"]]

theorem dissolvedSpec_legible {choices : List (Item String)}
    (hv : termsOfItems choices = ["a", "b"]) (ht : testsOfItems choices = []) :
    (dissolvedSpec choices).Legible id := by
  obtain ⟨hterms, hflags⟩ := nestedSpec_legible
  refine ⟨fun value hm => hterms value ?_, fun test hm => hflags test ?_⟩
  · simpa [dissolvedSpec, nestedSpec, ofItems, termsOfItems, Item.terms, hv] using hm
  · simpa [dissolvedSpec, nestedSpec, ofItems, testsOfItems, Item.tests, Head.test?, ht] using hm

/-- The conjunction in the conditional makes no difference to the text, that in the any-of group
does. -/
theorem text_nestedSpec_eq_text_dissolvedSpec :
    let kept : List (Item String) := [.group .allOf [.term "a"], .term "b"]
    let loose : List (Item String) := [.term "a", .term "b"]
    nestedSpec ≠ dissolvedSpec kept ∧ nestedSpec.text = (dissolvedSpec kept).text ∧
      nestedSpec.text ≠ (dissolvedSpec loose).text ∧
      ∃ again, parseText nestedSpec.text = .ok again ∧ again.text = nestedSpec.text := by
  intro kept loose
  obtain ⟨-, hiff, hagain⟩ := text_eq_text_iff_flattened_eq
  have hk : (dissolvedSpec kept).WellFormed :=
    wellFormed_ofItems (by simp [kept, WellFormedItems, Item.WellFormed])
  have hl : (dissolvedSpec loose).WellFormed :=
    wellFormed_ofItems (by simp [loose, WellFormedItems, Item.WellFormed])
  have hc : ∀ choices, (dissolvedSpec choices).conditional = true := by
    intro choices
    simp [dissolvedSpec, conditional_ofItems, testsOfItems, Item.tests, Head.test?]
  have hn : nestedSpec.conditional = true := conditional_ofItems _
  refine ⟨fun h => ?_, ?_, ?_, hagain id nestedSpec nestedSpec_wellFormed nestedSpec_legible⟩
  · have hitems := congrArg Spec.items h
    simp [nestedSpec, dissolvedSpec, ofItems] at hitems
  · refine (hiff _ _ nestedSpec_wellFormed hk nestedSpec_legible
      (dissolvedSpec_legible rfl rfl)).mpr ?_
    rw [flattened, flattened, hn, hc]
    rfl
  · refine mt (hiff _ _ nestedSpec_wellFormed hl nestedSpec_legible
      (dissolvedSpec_legible rfl rfl)).mp fun h => ?_
    have hitems := congrArg Spec.items h
    simp [flattened, nestedSpec, dissolvedSpec, ofItems, loose, flattenedItems, Item.flattened]
      at hitems

end Spec

end DepSpec
