import DepSpec.Collapsed

/-! Collapsing with a stack of the groups that are open. A group is finished when none of its
members is ahead; what is left of it is then kept in the group around it. -/

namespace DepSpec

variable {α : Type}

/-- An open group: whether it is an any-of group, its members that are ahead, and what is left of
those before them, last first. -/
structure Frame (α : Type) where
  anyOf : Bool
  ahead : List (Item α)
  left : List (Item α)

namespace Frame

def keep (frame : Frame α) (items : List (Item α)) : Frame α :=
  { frame with left := items.reverse ++ frame.left }

/-- Keeps what is left of a finished group. -/
def fold (frame done : Frame α) : Frame α :=
  frame.keep (residue frame.anyOf done.anyOf done.left.reverse)

/-- Finishes the innermost open group and those above it. -/
def reduce (passes : FlagTest → Bool) (frame : Frame α) (above : List (Frame α)) : List (Item α) :=
  match frame, above with
  | ⟨anyOf, .term value :: ahead, left⟩, above =>
    reduce passes (keep ⟨anyOf, ahead, left⟩ [.term value]) above
  | ⟨anyOf, .group head members :: ahead, left⟩, above =>
    if head.passes passes then
      reduce passes ⟨head.isAnyOf, members, []⟩ (⟨anyOf, ahead, left⟩ :: above)
    else reduce passes ⟨anyOf, ahead, left⟩ above
  | ⟨anyOf, [], left⟩, outer :: above => reduce passes (outer.fold ⟨anyOf, [], left⟩) above
  | ⟨_, [], left⟩, [] => left.reverse
termination_by sizeOf (frame.ahead :: above.map ahead)
decreasing_by
  all_goals
    simp only [keep, fold, List.map_cons, List.cons.sizeOf_spec, List.nil.sizeOf_spec,
      Item.term.sizeOf_spec, Item.group.sizeOf_spec]
    omega

mutual

theorem reduce_cons (passes : FlagTest → Bool) (anyOf : Bool) (left rest : List (Item α))
    (above : List (Frame α)) (item : Item α) :
    reduce passes ⟨anyOf, item :: rest, left⟩ above =
      reduce passes (keep ⟨anyOf, rest, left⟩ (item.collapsed passes anyOf)) above := by
  match item with
  | .term value => rw [reduce, Item.collapsed]
  | .group head members =>
    rw [reduce, Item.collapsed]
    by_cases hp : head.passes passes = true
    · -- the group is entered, all its members are read, and what is left of them is folded
      have hm := reduce_append passes head.isAnyOf [] [] (⟨anyOf, rest, left⟩ :: above) members
      rw [List.append_nil] at hm
      rw [if_pos hp, if_pos hp, hm, keep, reduce, fold]
      simp
    · simp [hp, keep]

/-- Reading items keeps what they collapse to. -/
theorem reduce_append (passes : FlagTest → Bool) (anyOf : Bool) (left rest : List (Item α))
    (above : List (Frame α)) (items : List (Item α)) :
    reduce passes ⟨anyOf, items ++ rest, left⟩ above =
      reduce passes (keep ⟨anyOf, rest, left⟩ (collapsedMembers passes anyOf items)) above := by
  match items with
  | [] => rfl
  | item :: items =>
    have hi := reduce_cons passes anyOf left (items ++ rest) above item
    have hr := reduce_append passes anyOf
      ((item.collapsed passes anyOf).reverse ++ left) rest above items
    rw [List.cons_append, hi, keep, hr, collapsedMembers]
    simp [keep]

end

end Frame

namespace Spec

/-- What is left of a specification if its mark is not asked for: the stack is run in any case. -/
def reduced (selection : FlagSelection) (spec : Spec α) : Spec α :=
  ⟨Frame.reduce selection.passes ⟨false, spec.items, []⟩ [], false⟩

theorem reduced_eq (selection : FlagSelection) (spec : Spec α) :
    spec.reduced selection = ⟨collapsedMembers selection.passes false spec.items, false⟩ := by
  have h := Frame.reduce_append selection.passes false [] [] [] spec.items
  rw [List.append_nil, Frame.keep, Frame.reduce] at h
  rw [reduced, h]
  simp

theorem evaluate_eq_reduced {spec : Spec α} (hc : spec.conditional = true)
    (selection : FlagSelection) : spec.evaluate selection = spec.reduced selection := by
  rw [evaluate, if_pos hc, reduced_eq, collapse_eq_collapsedMembers]

end Spec

end DepSpec
