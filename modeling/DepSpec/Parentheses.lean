import Mathlib.Data.Nat.Find

/-! Pairs of parentheses among the words of a text, by the number of pairs that are open before each
place. Where every parenthesis has its partner, the innermost pair around another one is the last
that was opened before it and is still open there. -/

namespace DepSpec

/-- What a word adds to the number of open pairs. -/
def weight (word : String) : Int :=
  if word = "(" then 1 else if word = ")" then -1 else 0

def depth : List String → Int
  | [] => 0
  | word :: ws => weight word + depth ws

/-- How many pairs are open before a place. -/
def depthAt (ws : List String) (k : Nat) : Int := depth (ws.take k)

structure Balanced (ws : List String) : Prop where
  level : depth ws = 0
  nonneg : ∀ k, 0 ≤ depthAt ws k

/-- The parentheses at two places belong together: the second one is the first to bring the depth
back to where it was before the other. -/
structure IsPair (ws : List String) (i j : Nat) : Prop where
  opening : ws[i]? = some "("
  closing : ws[j]? = some ")"
  lt : i < j
  level : depthAt ws (j + 1) = depthAt ws i
  deeper : ∀ k, i < k → k ≤ j → depthAt ws i < depthAt ws k

instance (ws : List String) (i j : Nat) : Decidable (IsPair ws i j) :=
  decidable_of_iff
    (ws[i]? = some "(" ∧ ws[j]? = some ")" ∧ i < j ∧ depthAt ws (j + 1) = depthAt ws i ∧
      ∀ k, k < j + 1 → i < k → depthAt ws i < depthAt ws k)
    ⟨fun ⟨ho, hc, hlt, hl, hd⟩ => ⟨ho, hc, hlt, hl, fun k hik hkj => hd k (by omega) hik⟩,
      fun ⟨ho, hc, hlt, hl, hd⟩ => ⟨ho, hc, hlt, hl, fun k hkj hik => hd k hik (by omega)⟩⟩

theorem IsPair.closing_lt_length {ws : List String} {i j : Nat} (h : IsPair ws i j) :
    j < ws.length :=
  (List.getElem?_eq_some_iff.mp h.closing).1

/-- Of the pairs around the one from `i` to `j`, that from `m` to `n` is the innermost. -/
structure IsInnermostAround (ws : List String) (i j m n : Nat) : Prop where
  pair : IsPair ws m n
  before : m < i
  after : j < n
  innermost : ∀ m' n', IsPair ws m' n' → m' < i → j < n' → m' ≤ m

instance (ws : List String) (i j m n : Nat) : Decidable (IsInnermostAround ws i j m n) :=
  decidable_of_iff
    (IsPair ws m n ∧ m < i ∧ j < n ∧
      ∀ m', m' < i → ∀ n', n' < ws.length → IsPair ws m' n' → j < n' → m' ≤ m)
    ⟨fun ⟨hp, hm, hn, hin⟩ =>
        ⟨hp, hm, hn, fun m' n' hp' hm' hn' => hin m' hm' n' hp'.closing_lt_length hp' hn'⟩,
      fun ⟨hp, hm, hn, hin⟩ => ⟨hp, hm, hn, fun m' hm' n' _ hp' hn' => hin m' n' hp' hm' hn'⟩⟩

/-- Of the parentheses that are open before a place, the one at `m` was opened last. -/
structure IsOpenAt (ws : List String) (p m : Nat) : Prop where
  opening : ws[m]? = some "("
  lt : m < p
  level : depthAt ws p = depthAt ws m + 1
  deeper : ∀ k, m < k → k ≤ p → depthAt ws m < depthAt ws k

theorem weight_eq_zero_iff {word : String} : weight word = 0 ↔ word ≠ "(" ∧ word ≠ ")" := by
  unfold weight
  split
  · simp [*]
  · split <;> simp [*]

theorem depth_append (xs ys : List String) : depth (xs ++ ys) = depth xs + depth ys := by
  induction xs with
  | nil => exact (Int.zero_add _).symm
  | cons word xs ih => rw [List.cons_append, depth, depth, ih, Int.add_assoc]

theorem depthAt_append (xs ys : List String) (k : Nat) :
    depthAt (xs ++ ys) k = depthAt xs k + depthAt ys (k - xs.length) := by
  rw [depthAt, List.take_append, depth_append, depthAt, depthAt]

theorem depthAt_of_length_le {ws : List String} {k : Nat} (h : ws.length ≤ k) :
    depthAt ws k = depth ws := by
  rw [depthAt, List.take_of_length_le h]

theorem depthAt_succ_cases (ws : List String) (k : Nat) :
    (ws[k]? = some "(" ∧ depthAt ws (k + 1) = depthAt ws k + 1) ∨
      (ws[k]? = some ")" ∧ depthAt ws (k + 1) = depthAt ws k - 1) ∨
      (ws[k]? ≠ some "(" ∧ ws[k]? ≠ some ")" ∧ depthAt ws (k + 1) = depthAt ws k) := by
  have hs : depthAt ws (k + 1) = depthAt ws k + depth ws[k]?.toList := by
    rw [depthAt, List.take_add_one, depth_append, depthAt]
  cases hk : ws[k]? with
  | none => simp [hs, hk, depth]
  | some word =>
    by_cases ho : word = "("
    · simp [hs, hk, depth, weight, ho]
    · by_cases hc : word = ")"
      · simp [hs, hk, depth, weight, hc]
        omega
      · simp [hs, hk, depth, weight, ho, hc]

theorem depthAt_succ_of_opening {ws : List String} {k : Nat} (h : ws[k]? = some "(") :
    depthAt ws (k + 1) = depthAt ws k + 1 := by
  rcases depthAt_succ_cases ws k with ⟨-, hs⟩ | ⟨hc, -⟩ | ⟨ho, -⟩
  · exact hs
  · rw [h] at hc
    simp at hc
  · exact absurd h ho

namespace IsPair

variable {ws : List String} {i j m n : Nat}

theorem closing_unique (h : IsPair ws i j) (h' : IsPair ws i n) : j = n := by
  rcases Nat.lt_trichotomy j n with hlt | he | hlt
  · have hd := h'.deeper (j + 1) (by have := h.lt; omega) (by omega)
    have hl := h.level
    omega
  · exact he
  · have hd := h.deeper (n + 1) (by have := h'.lt; omega) (by omega)
    have hl := h'.level
    omega

theorem opening_unique (h : IsPair ws i j) (h' : IsPair ws m j) : i = m := by
  have hl := h.level
  have hl' := h'.level
  rcases Nat.lt_trichotomy i m with hlt | he | hlt
  · have hd := h.deeper m hlt (Nat.le_of_lt h'.lt)
    omega
  · exact he
  · have hd := h'.deeper i hlt (Nat.le_of_lt h.lt)
    omega

end IsPair

theorem Balanced.exists_isPair {ws : List String} {i : Nat} (hb : Balanced ws)
    (h : ws[i]? = some "(") : ∃ j, IsPair ws i j := by
  classical
  have hi : i < ws.length := (List.getElem?_eq_some_iff.mp h).1
  -- the partner is the first parenthesis that brings the depth back
  have hex : ∃ k, i < k ∧ depthAt ws (k + 1) ≤ depthAt ws i := by
    refine ⟨ws.length, hi, ?_⟩
    rw [depthAt_of_length_le (Nat.le_succ _), hb.level]
    exact hb.nonneg i
  obtain ⟨hij, hle⟩ := Nat.find_spec hex
  have hdeeper : ∀ k, i < k → k ≤ Nat.find hex → depthAt ws i < depthAt ws k := by
    intro k hik hkj
    by_cases hk : k = i + 1
    · rw [hk, depthAt_succ_of_opening h]
      omega
    · have hmin := Nat.find_min hex (show k - 1 < Nat.find hex by omega)
      rw [show k - 1 + 1 = k by omega] at hmin
      omega
  have hlast := hdeeper _ hij (Nat.le_refl _)
  rcases depthAt_succ_cases ws (Nat.find hex) with ⟨-, hs⟩ | ⟨hc, hs⟩ | ⟨-, -, hs⟩
  · omega
  · exact ⟨Nat.find hex, h, hc, hij, by omega, hdeeper⟩
  · omega

namespace IsOpenAt

variable {ws : List String} {p m n : Nat}

theorem unique (h : IsOpenAt ws p m) (h' : IsOpenAt ws p n) : m = n := by
  have hl := h.level
  have hl' := h'.level
  rcases Nat.lt_trichotomy m n with hlt | he | hlt
  · have hd := h.deeper n hlt (Nat.le_of_lt h'.lt)
    omega
  · exact he
  · have hd := h'.deeper m hlt (Nat.le_of_lt h.lt)
    omega

theorem of_opening (h : ws[p]? = some "(") : IsOpenAt ws (p + 1) p := by
  have hs := depthAt_succ_of_opening h
  refine ⟨h, Nat.lt_succ_self p, hs, fun k hpk hkp => ?_⟩
  rw [show k = p + 1 by omega, hs]
  omega

theorem closing_lt {j : Nat} (h : IsOpenAt ws p m) (hm : IsPair ws m n) (hp : IsPair ws p j) :
    j < n := by
  have hlm := hm.level
  -- a pair that is open at `p` is not closed before it, nor inside the pair that begins there
  have hpn : p ≤ n := by
    refine Nat.le_of_not_lt fun hlt => ?_
    have hd := h.deeper (n + 1) (by have := hm.lt; omega) hlt
    omega
  have hne : p ≠ n := by
    rintro rfl
    have hc := hm.closing
    rw [hp.opening] at hc
    simp at hc
  refine Nat.lt_of_not_le fun hle => ?_
  rcases Nat.lt_or_eq_of_le hle with hlt | rfl
  · have hd := hp.deeper (n + 1) (by omega) hlt
    have hl := h.level
    omega
  · have he := hm.opening_unique hp
    have hlt := h.lt
    omega

end IsOpenAt

theorem exists_isOpenAt {ws : List String} {p : Nat} (h : 0 < depthAt ws p) :
    ∃ m, IsOpenAt ws p m := by
  have hzero : depthAt ws 0 < depthAt ws p := h
  -- the last place before `p` that is less deep
  let m := Nat.findGreatest (fun k => depthAt ws k < depthAt ws p) p
  have hspec : depthAt ws m < depthAt ws p :=
    Nat.findGreatest_spec (P := fun k => depthAt ws k < depthAt ws p) (Nat.zero_le p) hzero
  have hm : m < p := by
    have hle : m ≤ p := Nat.findGreatest_le p
    have hne : m ≠ p := fun he => by simp [he] at hspec
    omega
  have hdeeper : ∀ k, m < k → k ≤ p → depthAt ws p ≤ depthAt ws k := by
    intro k hmk hkp
    have hgreatest := Nat.findGreatest_is_greatest hmk hkp
    omega
  have hnext := hdeeper (m + 1) (Nat.lt_succ_self m) hm
  rcases depthAt_succ_cases ws m with ⟨ho, hs⟩ | ⟨-, hs⟩ | ⟨-, -, hs⟩
  · exact ⟨m, ho, hm, by omega, fun k hmk hkp => by have := hdeeper k hmk hkp; omega⟩
  · omega
  · omega

/-- The innermost pair around another one is the last that is still open where that is opened. -/
theorem Balanced.exists_isInnermostAround_iff {ws : List String} {i j m : Nat} (hb : Balanced ws)
    (h : IsPair ws i j) : (∃ n, IsInnermostAround ws i j m n) ↔ IsOpenAt ws i m := by
  constructor
  · rintro ⟨n, hp, hmi, hjn, hin⟩
    have hd := hp.deeper i hmi (by have := h.lt; omega)
    have hm := hb.nonneg m
    obtain ⟨k, hk⟩ := exists_isOpenAt (show 0 < depthAt ws i by omega)
    obtain ⟨l, hl⟩ := hb.exists_isPair hk.opening
    rcases Nat.lt_or_eq_of_le (hin k l hl hk.lt (hk.closing_lt hl h)) with hlt | rfl
    · have hkm := hk.deeper m hlt (Nat.le_of_lt hmi)
      have hlevel := hk.level
      omega
    · exact hk
  · intro ho
    obtain ⟨n, hn⟩ := hb.exists_isPair ho.opening
    refine ⟨n, hn, ho.lt, ho.closing_lt hn h, fun m' n' hp hmi hjn => ?_⟩
    refine Nat.le_of_not_lt fun hlt => ?_
    have hd := ho.deeper m' hlt (Nat.le_of_lt hmi)
    have hd' := hp.deeper i hmi (by have := h.lt; omega)
    have hlevel := ho.level
    omega

theorem Balanced.append {xs ys : List String} (hx : Balanced xs) (hy : Balanced ys) :
    Balanced (xs ++ ys) := by
  refine ⟨?_, fun k => ?_⟩
  · rw [depth_append, hx.level, hy.level]
    rfl
  · have hxk := hx.nonneg k
    have hyk := hy.nonneg (k - xs.length)
    rw [depthAt_append]
    omega

theorem balanced_of_weight_eq_zero {ws : List String} (h : ∀ word ∈ ws, weight word = 0) :
    Balanced ws := by
  have hd : ∀ us : List String, us ⊆ ws → depth us = 0 := by
    intro us
    induction us with
    | nil => exact fun _ => rfl
    | cons word us ih =>
      intro hs
      obtain ⟨hm, hr⟩ := List.cons_subset.mp hs
      rw [depth, h word hm, ih hr]
      rfl
  refine ⟨hd ws (List.Subset.refl ws), fun k => ?_⟩
  exact Int.le_of_eq (hd _ (List.take_subset k ws)).symm

theorem Balanced.wrap {ws : List String} (h : Balanced ws) : Balanced ("(" :: (ws ++ [")"])) := by
  have ho : weight "(" = 1 := rfl
  have hc : depth [")"] = -1 := rfl
  refine ⟨?_, fun k => ?_⟩
  · rw [depth, depth_append, h.level, ho, hc]
    rfl
  · cases k with
    | zero => exact Int.le_refl 0
    | succ k =>
      have hk := h.nonneg k
      have hl : -1 ≤ depthAt [")"] (k - ws.length) := by
        cases k - ws.length with
        | zero => decide
        | succ l => exact Int.le_of_eq (by rw [depthAt_of_length_le (by simp), hc])
      rw [depthAt, List.take_succ_cons, depth, ho, ← depthAt, depthAt_append]
      omega

section Surrounded

variable {inner : List String} (h : Balanced inner) (before after : List String)

theorem depthAt_append_length :
    depthAt (before ++ after) before.length = depth before := by
  rw [depthAt, List.take_left]

theorem depthAt_surrounded {k : Nat} (hk : k ≤ inner.length) :
    depthAt (before ++ (inner ++ after)) (before.length + k) = depth before + depthAt inner k := by
  rw [depthAt_append, depthAt_of_length_le (Nat.le_add_right _ _), Nat.add_sub_cancel_left,
    depthAt, List.take_append_of_le_length hk, ← depthAt]

include h

theorem Balanced.depthAt_length :
    depthAt (before ++ (inner ++ after)) (before.length + inner.length) = depth before := by
  rw [depthAt_surrounded before after (Nat.le_refl _), depthAt_of_length_le (Nat.le_refl _),
    h.level, Int.add_zero]

theorem Balanced.le_depthAt {k : Nat} (hl : before.length ≤ k)
    (hu : k ≤ before.length + inner.length) :
    depth before ≤ depthAt (before ++ (inner ++ after)) k := by
  obtain ⟨l, rfl⟩ := Nat.exists_eq_add_of_le hl
  have hk := h.nonneg l
  rw [depthAt_surrounded before after (by omega)]
  omega

/-- Parentheses around what is balanced belong together. -/
theorem Balanced.isPair :
    IsPair (before ++ "(" :: (inner ++ ")" :: after)) before.length
      (before.length + 1 + inner.length) := by
  have hs : before ++ "(" :: (inner ++ ")" :: after) =
      (before ++ ["("]) ++ (inner ++ ")" :: after) := by simp
  have hmid : ∀ (us vs : List String) (word : String),
      (us ++ word :: vs)[us.length]? = some word := by simp
  have hclose : (before ++ "(" :: (inner ++ ")" :: after))[before.length + 1 + inner.length]? =
      some ")" := by
    have hc := hmid (before ++ ["("] ++ inner) after ")"
    rwa [List.append_assoc, ← hs, List.length_append, List.length_append, List.length_singleton]
      at hc
  have hdepth : depth (before ++ ["("]) = depth before + 1 := by
    rw [depth_append]
    rfl
  have hfirst := depthAt_append_length before ("(" :: (inner ++ ")" :: after))
  have hlast := h.depthAt_length (before ++ ["("]) (")" :: after)
  rw [← hs, hdepth, List.length_append, List.length_singleton] at hlast
  refine ⟨hmid _ _ _, hclose, by omega, ?_, fun k hik hkj => ?_⟩
  · rcases depthAt_succ_cases (before ++ "(" :: (inner ++ ")" :: after))
        (before.length + 1 + inner.length) with ⟨ho, -⟩ | ⟨-, hl⟩ | ⟨-, hc, -⟩
    · rw [hclose] at ho
      simp at ho
    · omega
    · exact absurd hclose hc
  · have hle := h.le_depthAt (before ++ ["("]) (")" :: after) (k := k) (by simp; omega)
      (by simp; omega)
    rw [← hs, hdepth] at hle
    omega

/-- What is open before a balanced part is open after it, and nothing else. -/
theorem Balanced.isOpenAt_iff {m : Nat} :
    IsOpenAt (before ++ (inner ++ after)) (before.length + inner.length) m ↔
      IsOpenAt (before ++ (inner ++ after)) before.length m := by
  have hlast := h.depthAt_length before after
  have hfirst := depthAt_append_length before (inner ++ after)
  constructor
  · rintro ⟨ho, hlt, hl, hd⟩
    have hm : m < before.length := by
      refine Nat.lt_of_not_le fun hle => ?_
      have hge := h.le_depthAt before after hle (Nat.le_of_lt hlt)
      omega
    exact ⟨ho, hm, by omega, fun k hmk hkp => hd k hmk (by omega)⟩
  · rintro ⟨ho, hlt, hl, hd⟩
    refine ⟨ho, by omega, by omega, fun k hmk hkp => ?_⟩
    rcases Nat.lt_or_ge k before.length with hlt' | hge
    · exact hd k hmk (Nat.le_of_lt hlt')
    · have hle := h.le_depthAt before after hge hkp
      omega

end Surrounded

end DepSpec
