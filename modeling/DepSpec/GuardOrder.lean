import DepSpec.Guard

/-! The order of guards, which is total and puts only equal guards at the same place. Tests come
before conjunctions; tests go by name and then by polarity, conjunctions part by part. -/

namespace DepSpec

def comparePolarity : Bool → Bool → Ordering
  | false, true => .lt
  | true, false => .gt
  | _, _ => .eq

def FlagTest.compare (a b : FlagTest) : Ordering :=
  (compareNames a.flag b.flag).then (comparePolarity a.negated b.negated)

theorem swap_comparePolarity (a b : Bool) :
    (comparePolarity a b).swap = comparePolarity b a := by
  cases a <;> cases b <;> rfl

theorem comparePolarity_eq_eq_iff {a b : Bool} : comparePolarity a b = .eq ↔ a = b := by
  cases a <;> cases b <;> simp [comparePolarity]

theorem comparePolarity_eq_lt_iff {a b : Bool} :
    comparePolarity a b = .lt ↔ a = false ∧ b = true := by
  cases a <;> cases b <;> simp [comparePolarity]

namespace FlagTest

theorem swap_compare (s t : FlagTest) : (s.compare t).swap = t.compare s := by
  rw [compare, compare, Ordering.swap_then, swap_compareNames, swap_comparePolarity]

theorem compare_eq_eq_iff {s t : FlagTest} : s.compare t = .eq ↔ s = t := by
  rw [compare, Ordering.then_eq_eq, compareNames_eq_eq_iff, comparePolarity_eq_eq_iff,
    FlagTest.mk.injEq]

theorem compare_eq_lt_iff {s t : FlagTest} :
    s.compare t = .lt ↔
      compareNames s.flag t.flag = .lt ∨
        s.flag = t.flag ∧ s.negated = false ∧ t.negated = true := by
  rw [compare, Ordering.then_eq_lt, compareNames_eq_eq_iff, comparePolarity_eq_lt_iff]

theorem compare_lt_trans {s t u : FlagTest} (hst : s.compare t = .lt) (htu : t.compare u = .lt) :
    s.compare u = .lt := by
  simp only [compare_eq_lt_iff, compareNames_eq_lt_iff] at *
  rcases hst with hst | ⟨hf, hs, ht⟩
  · rcases htu with htu | ⟨hf, -, -⟩
    · exact .inl (String.lt_trans hst htu)
    · exact .inl (hf ▸ hst)
  · rcases htu with htu | ⟨-, hn, -⟩
    · exact .inl (hf ▸ htu)
    · simp [ht] at hn

end FlagTest

namespace Guard

mutual

def compare : Guard → Guard → Ordering
  | .test a, .test b => a.compare b
  | .test _, .all _ => .lt
  | .all _, .test _ => .gt
  | .all as, .all bs => compareParts as bs

def compareParts : List Guard → List Guard → Ordering
  | [], [] => .eq
  | [], _ :: _ => .lt
  | _ :: _, [] => .gt
  | a :: as, b :: bs => (a.compare b).then (compareParts as bs)

end

def sorted (guards : List Guard) : List Guard :=
  guards.mergeSort fun a b => (a.compare b).isLE

mutual

theorem swap_compare (p q : Guard) : (p.compare q).swap = q.compare p := by
  match p, q with
  | .test s, .test t => exact s.swap_compare t
  | .test _, .all _ => rfl
  | .all _, .test _ => rfl
  | .all ps, .all qs => exact swap_compareParts ps qs

theorem swap_compareParts (ps qs : List Guard) :
    (compareParts ps qs).swap = compareParts qs ps := by
  match ps, qs with
  | [], [] => rfl
  | [], _ :: _ => rfl
  | _ :: _, [] => rfl
  | p :: ps, q :: qs =>
    rw [compareParts, compareParts, Ordering.swap_then, swap_compare p q, swap_compareParts ps qs]

end

mutual

theorem compare_eq_eq_iff {p q : Guard} : p.compare q = .eq ↔ p = q := by
  match p, q with
  | .test s, .test t => rw [compare, FlagTest.compare_eq_eq_iff, Guard.test.injEq]
  | .test _, .all _ => simp [compare]
  | .all _, .test _ => simp [compare]
  | .all ps, .all qs => rw [compare, compareParts_eq_eq_iff, Guard.all.injEq]

theorem compareParts_eq_eq_iff {ps qs : List Guard} : compareParts ps qs = .eq ↔ ps = qs := by
  match ps, qs with
  | [], [] => simp [compareParts]
  | [], _ :: _ => simp [compareParts]
  | _ :: _, [] => simp [compareParts]
  | p :: ps, q :: qs =>
    rw [compareParts, Ordering.then_eq_eq, compare_eq_eq_iff, compareParts_eq_eq_iff,
      List.cons.injEq]

end

theorem compareParts_eq_lt_iff {ps qs : List Guard} :
    compareParts ps qs = .lt ↔ List.Lex (fun p q : Guard => p.compare q = .lt) ps qs := by
  induction ps generalizing qs with
  | nil => cases qs <;> simp [compareParts]
  | cons p ps ih =>
    cases qs with
    | nil => simp [compareParts]
    | cons q qs =>
      rw [compareParts, Ordering.then_eq_lt, compare_eq_eq_iff, ih, List.cons_lex_cons_iff]

mutual

theorem compare_lt_trans {p q r : Guard} (hpq : p.compare q = .lt) (hqr : q.compare r = .lt) :
    p.compare r = .lt := by
  match p, q, r with
  | .test s, .test t, .test u => exact FlagTest.compare_lt_trans hpq hqr
  | .test _, _, .all _ => rfl
  | .all _, .test _, _ => cases hpq
  | _, .all _, .test _ => cases hqr
  | .all ps, .all qs, .all rs => exact compareParts_lt_trans hpq hqr

theorem compareParts_lt_trans {ps qs rs : List Guard} (hpq : compareParts ps qs = .lt)
    (hqr : compareParts qs rs = .lt) : compareParts ps rs = .lt := by
  match ps, qs, rs with
  | _, _, [] => rw [compareParts_eq_lt_iff] at hqr; cases hqr
  | _, [], _ => rw [compareParts_eq_lt_iff] at hpq; cases hpq
  | [], _, _ :: _ => rfl
  | p :: ps, q :: qs, r :: rs =>
    simp only [compareParts, Ordering.then_eq_lt, compare_eq_eq_iff] at *
    rcases hpq with hpq | ⟨rfl, hpq⟩
    · rcases hqr with hqr | ⟨rfl, -⟩
      · exact .inl (compare_lt_trans hpq hqr)
      · exact .inl hpq
    · rcases hqr with hqr | ⟨rfl, hqr⟩
      · exact .inl hqr
      · exact .inr ⟨rfl, compareParts_lt_trans hpq hqr⟩

end

theorem isLE_compare_iff {p q : Guard} :
    (p.compare q).isLE = true ↔ p.compare q = .lt ∨ p = q := by
  rw [Ordering.isLE_iff_eq_lt_or_eq_eq, compare_eq_eq_iff]

theorem isLE_compare_trans {p q r : Guard} (hpq : (p.compare q).isLE = true)
    (hqr : (q.compare r).isLE = true) : (p.compare r).isLE = true := by
  rw [isLE_compare_iff] at *
  rcases hpq with hpq | rfl
  · rcases hqr with hqr | rfl
    · exact .inl (compare_lt_trans hpq hqr)
    · exact .inl hpq
  · exact hqr

theorem isLE_compare_total (p q : Guard) :
    (p.compare q).isLE = true ∨ (q.compare p).isLE = true := by
  rw [← swap_compare p q]
  cases p.compare q <;> simp

theorem isLE_compare_antisymm {p q : Guard} (hpq : (p.compare q).isLE = true)
    (hqp : (q.compare p).isLE = true) : p = q := by
  have hs := swap_compare p q
  rw [isLE_compare_iff] at hpq
  rcases hpq with hpq | rfl
  · rw [← hs, hpq] at hqp
    cases hqp
  · rfl

theorem compareParts_append_eq_lt (ps : List Guard) {qs : List Guard} (h : qs ≠ []) :
    compareParts ps (ps ++ qs) = .lt := by
  induction ps with
  | nil =>
    cases qs with
    | nil => exact absurd rfl h
    | cons q qs => rfl
  | cons p ps ih =>
    rw [List.cons_append, compareParts, ih, Ordering.then_eq_lt, compare_eq_eq_iff]
    exact .inr ⟨rfl, rfl⟩

end Guard

end DepSpec
