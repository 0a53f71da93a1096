/-! Names in the order of their code points, and lists of names that hold each once in that
order. -/

namespace DepSpec

def compareNames (a b : String) : Ordering :=
  if a < b then .lt else if a = b then .eq else .gt

/-- Leaves out a name that stands before itself. -/
def withoutRepeats (names : List String) : List String :=
  names.foldr (fun name rest => if rest.head? = some name then rest else name :: rest) []

def sortedNames (names : List String) : List String :=
  withoutRepeats (names.mergeSort fun a b => (compareNames a b).isLE)

theorem compareNames_eq_lt_iff {a b : String} : compareNames a b = .lt ↔ a < b := by
  unfold compareNames
  split
  · simp [*]
  · split <;> simp [*]

theorem compareNames_eq_compare (a b : String) : compareNames a b = compare a b := rfl

theorem swap_compareNames (a b : String) : (compareNames a b).swap = compareNames b a := by
  rw [compareNames_eq_compare, compareNames_eq_compare, ← Std.OrientedOrd.eq_swap]

theorem compareNames_eq_eq_iff {a b : String} : compareNames a b = .eq ↔ a = b := by
  rw [compareNames_eq_compare, Std.LawfulEqOrd.compare_eq_iff_eq]

theorem compareNames_eq_lt_iff_codePoints {a b : String} :
    compareNames a b = .lt ↔
      List.Lex (fun c d : Char => c.toNat < d.toNat) a.toList b.toList := by
  rw [compareNames_eq_lt_iff, String.lt_iff]
  rfl

theorem compareNames_isLE_iff {a b : String} : (compareNames a b).isLE = true ↔ a ≤ b := by
  rw [← String.not_lt]
  unfold compareNames
  split
  · rename_i h
    simp [String.lt_asymm h]
  · split
    · rename_i h
      subst h
      exact ⟨fun _ => String.lt_irrefl a, fun _ => rfl⟩
    · rename_i h he
      simp only [Ordering.isLE_gt, Bool.false_eq_true, false_iff]
      exact fun hn => hn (String.not_le.mp fun hle =>
        he (String.le_antisymm hle (String.not_lt.mp h)))

theorem withoutRepeats_cons (name : String) (names : List String) :
    withoutRepeats (name :: names) =
      if (withoutRepeats names).head? = some name then withoutRepeats names
      else name :: withoutRepeats names := by
  rw [withoutRepeats, List.foldr_cons, ← withoutRepeats]

theorem mem_withoutRepeats {names : List String} :
    ∀ {name : String}, name ∈ withoutRepeats names ↔ name ∈ names := by
  induction names with
  | nil => simp [withoutRepeats]
  | cons first names ih =>
    intro name
    rw [withoutRepeats_cons]
    split
    · rename_i h
      rw [ih, List.mem_cons]
      exact ⟨.inr, fun hn => hn.elim (fun he => he ▸ ih.mp (List.mem_of_mem_head? h)) id⟩
    · simp [ih]

theorem pairwise_withoutRepeats {names : List String} (h : names.Pairwise (· ≤ ·)) :
    (withoutRepeats names).Pairwise (· < ·) := by
  induction names with
  | nil => simp [withoutRepeats]
  | cons first names ih =>
    obtain ⟨hf, hn⟩ := List.pairwise_cons.mp h
    have hp := ih hn
    rw [withoutRepeats_cons]
    split
    · exact hp
    · rename_i hne
      refine List.pairwise_cons.mpr ⟨fun name hm => ?_, hp⟩
      cases hw : withoutRepeats names with
      | nil => simp [hw] at hm
      | cons least rest =>
        have hl : first ≤ least := hf least (mem_withoutRepeats.mp (by simp [hw]))
        have hlt : first < least := String.not_le.mp fun hle =>
          hne (by simp [hw, String.le_antisymm hle hl])
        rw [hw] at hm hp
        rcases List.mem_cons.mp hm with rfl | hr
        · exact hlt
        · exact String.lt_trans hlt ((List.pairwise_cons.mp hp).1 name hr)

theorem mem_sortedNames {name : String} {names : List String} :
    name ∈ sortedNames names ↔ name ∈ names := by
  rw [sortedNames, mem_withoutRepeats, List.mem_mergeSort]

theorem pairwise_sortedNames (names : List String) : (sortedNames names).Pairwise (· < ·) := by
  have hs : (names.mergeSort fun a b => (compareNames a b).isLE).Pairwise
      fun a b => (compareNames a b).isLE = true := by
    apply List.pairwise_mergeSort
    · intro a b c hab hbc
      rw [compareNames_isLE_iff] at *
      exact String.le_trans hab hbc
    · intro a b
      rw [Bool.or_eq_true, compareNames_isLE_iff, compareNames_isLE_iff]
      exact String.le_total a b
  exact pairwise_withoutRepeats (hs.imp fun h => compareNames_isLE_iff.mp h)

end DepSpec
