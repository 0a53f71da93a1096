import DepSpec.GuardOrder

/-! As the order of guards is total, the guards of a list have one sorted order, whichever order
they come in. -/

namespace DepSpec.Guard

theorem sorted_perm (guards : List Guard) : (sorted guards).Perm guards :=
  List.mergeSort_perm guards _

theorem pairwise_sorted (guards : List Guard) :
    (sorted guards).Pairwise fun p q => (p.compare q).isLE = true := by
  apply List.pairwise_mergeSort
  · intro p q r hpq hqr
    exact isLE_compare_trans hpq hqr
  · intro p q
    rw [Bool.or_eq_true]
    exact isLE_compare_total p q

theorem sorted_eq_of_perm {guards others : List Guard} (h : guards.Perm others) :
    sorted guards = sorted others := by
  have hp : (sorted guards).Perm (sorted others) :=
    (sorted_perm guards).trans (h.trans (sorted_perm others).symm)
  refine hp.eq_of_pairwise ?_ (pairwise_sorted guards) (pairwise_sorted others)
  intro p q _ _ hpq hqp
  exact isLE_compare_antisymm hpq hqp

/-- Guards are ordered totally: tests before conjunctions, tests by the code points of their flags
and then by polarity, conjunctions part by part. A list of guards has one sorted order. -/
theorem compare_total_and_sorted_unique :
    (∀ p q : Guard, p.compare q = .eq ↔ p = q) ∧
    (∀ p q : Guard, p.compare q = (q.compare p).swap) ∧
    (∀ p q r : Guard, (p.compare q).isLE = true → (q.compare r).isLE = true →
      (p.compare r).isLE = true) ∧
    (∀ test parts, (Guard.test test).compare (.all parts) = .lt) ∧
    (∀ s t : FlagTest, (Guard.test s).compare (.test t) = .lt ↔
      List.Lex (fun c d : Char => c.toNat < d.toNat) s.flag.toList t.flag.toList ∨
        s.flag = t.flag ∧ s.negated = false ∧ t.negated = true) ∧
    (∀ ps qs : List Guard, (Guard.all ps).compare (.all qs) = .lt ↔
      List.Lex (fun p q : Guard => p.compare q = .lt) ps qs) ∧
    (∀ ps qs : List Guard, qs ≠ [] → (Guard.all ps).compare (.all (ps ++ qs)) = .lt) ∧
    ∀ guards : List Guard,
      (sorted guards).Pairwise (fun p q => (p.compare q).isLE = true) ∧
        (sorted guards).Perm guards ∧
        ∀ others : List Guard, others.Perm guards → sorted others = sorted guards := by
  refine ⟨fun p q => compare_eq_eq_iff, fun p q => (swap_compare q p).symm,
    fun p q r => isLE_compare_trans, fun test parts => rfl, fun s t => ?_, fun ps qs => ?_,
    fun ps qs h => compareParts_append_eq_lt ps h, fun guards => ?_⟩
  · rw [compare, FlagTest.compare_eq_lt_iff, compareNames_eq_lt_iff_codePoints]
  · rw [compare, compareParts_eq_lt_iff]
  · exact ⟨pairwise_sorted guards, sorted_perm guards, fun others => sorted_eq_of_perm⟩

theorem sorted_nested_conjunctions :
    let plain : Guard := enabled "a"
    let negated : Guard := disabled "a"
    let one : Guard := .all [plain]
    let two : Guard := .all [plain, negated]
    (plain.compare negated).isLE = true ∧ (negated.compare one).isLE = true ∧
      (plain.compare one).isLE = true ∧ one.compare two = .lt ∧
      sorted [two, negated, one, plain] = [plain, negated, one, two] := by
  intro plain negated one two
  obtain ⟨-, -, htrans, hbelow, htests, -, hmore, hsort⟩ := compare_total_and_sorted_unique
  have hpn : plain.compare negated = .lt := (htests _ _).mpr (.inr ⟨rfl, rfl, rfl⟩)
  have hno : negated.compare one = .lt := hbelow _ _
  have hot : one.compare two = .lt := hmore [plain] [negated] (by simp)
  have hpo := htrans plain negated one (by rw [hpn]; rfl) (by rw [hno]; rfl)
  refine ⟨by rw [hpn]; rfl, by rw [hno]; rfl, hpo, hot, ?_⟩
  have hperm : [two, negated, one, plain].Perm [plain, negated, one, two] :=
    (List.reverse_perm [plain, one, negated, two]).trans
      (.cons _ (.swap _ _ _))
  rw [(hsort _).2.2 _ hperm]
  refine List.mergeSort_of_pairwise ?_
  simp [hpn, hno, hot, hpo, show plain.compare two = .lt from hbelow _ _,
    show negated.compare two = .lt from hbelow _ _]

end DepSpec.Guard
