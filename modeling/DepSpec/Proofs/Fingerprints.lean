import DepSpec.Fingerprint
import DepSpec.Lockstep

/-! Fingerprints tell apart exactly the items that are not the same. What is written of a text, a
test, a guard, a head or an item shows by itself where it ends, so it can be read off whatever is
written after it. -/

namespace DepSpec

variable {α : Type}

/-- A sequence that begins with what is written of `x` begins with it in this way only, so it is
known what is left behind it. -/
def Delimited (write : α → List Nat) (x : α) : Prop :=
  ∀ y rest others, write x ++ rest = write y ++ others → x = y ∧ rest = others

/-- Sequences that are equal if what they are written of is the same; if it is not, neither of them
begins the other. -/
def Separated (same : Prop) (xs ys : List Nat) : Prop :=
  (xs = ys ↔ same) ∧ (¬same → ¬xs <+: ys ∧ ¬ys <+: xs)

theorem Separated.of_append_inj {same : Prop} {xs ys : List Nat} (heq : same → xs = ys)
    (hinj : ∀ rest others, xs ++ rest = ys ++ others → same) : Separated same xs ys := by
  refine ⟨⟨fun h => hinj [] [] (h ▸ rfl), heq⟩, fun hn => ⟨?_, ?_⟩⟩
  · rintro ⟨rest, hr⟩
    exact hn (hinj rest [] (by rw [hr, List.append_nil]))
  · rintro ⟨rest, hr⟩
    exact hn (hinj [] rest (by rw [hr, List.append_nil]))

namespace Delimited

variable {write : α → List Nat}

theorem flatMap_append_inj {xs ys : List α} {rest others : List Nat}
    (hd : ∀ x ∈ xs, Delimited write x) (hl : xs.length = ys.length)
    (h : xs.flatMap write ++ rest = ys.flatMap write ++ others) : xs = ys ∧ rest = others := by
  induction xs generalizing ys with
  | nil =>
    obtain rfl := List.length_eq_zero_iff.mp hl.symm
    exact ⟨rfl, h⟩
  | cons x xs ih =>
    obtain ⟨y, ys, rfl⟩ := List.exists_cons_of_length_eq_add_one hl.symm
    simp only [List.flatMap_cons, List.append_assoc] at h
    obtain ⟨rfl, hr⟩ := hd x List.mem_cons_self y _ _ h
    obtain ⟨rfl, ho⟩ := ih (fun z hz => hd z (List.mem_cons_of_mem _ hz)) (Nat.succ.inj hl) hr
    exact ⟨rfl, ho⟩

theorem counted {xs : List α} (hd : ∀ x ∈ xs, Delimited write x) :
    Delimited (fun ys : List α => ys.length :: ys.flatMap write) xs := by
  intro ys rest others h
  obtain ⟨hl, h⟩ := List.cons.inj h
  exact flatMap_append_inj hd hl h

end Delimited

/-- Here `a` may occur behind its first place, in `rest` and in `others`. -/
theorem append_cons_inj_of_notMem_both {a : α} {xs ys rest others : List α} (hx : a ∉ xs)
    (hy : a ∉ ys) (h : xs ++ a :: rest = ys ++ a :: others) : xs = ys ∧ rest = others := by
  induction xs generalizing ys with
  | nil =>
    cases ys with
    | nil => exact ⟨rfl, (List.cons.inj h).2⟩
    | cons y ys => exact absurd ((List.cons.inj h).1 ▸ List.mem_cons_self) hy
  | cons x xs ih =>
    cases ys with
    | nil => exact absurd ((List.cons.inj h).1 ▸ List.mem_cons_self) hx
    | cons y ys =>
      obtain ⟨rfl, ht⟩ := List.cons.inj h
      obtain ⟨rfl, hr⟩ := ih (List.not_mem_of_not_mem_cons hx) (List.not_mem_of_not_mem_cons hy) ht
      exact ⟨rfl, hr⟩

theorem toList_loop_eq (bytes : ByteArray) (i : Nat) (seen : List UInt8) :
    ByteArray.toList.loop bytes i seen = seen.reverse ++ bytes.data.toList.drop i := by
  fun_induction ByteArray.toList.loop bytes i seen with
  | case1 i seen h ih =>
    have hi : i < bytes.data.toList.length := h
    rw [ih, List.drop_eq_getElem_cons hi]
    simp [ByteArray.get!, h]
  | case2 i seen h =>
    have hi : bytes.data.toList.length ≤ i := Nat.le_of_not_lt h
    rw [List.drop_eq_nil_of_le hi, List.append_nil]

theorem toList_toUTF8 (text : String) :
    text.toUTF8.toList = text.toList.flatMap String.utf8EncodeChar := by
  have h : text.toUTF8 = text.toList.utf8Encode := by
    rw [← String.toByteArray_ofList, String.ofList_toList]
    rfl
  rw [ByteArray.toList, toList_loop_eq, h, List.utf8Encode, List.toList_data_toByteArray]
  rfl

theorem toList_toUTF8_injective : Function.Injective fun text : String => text.toUTF8.toList := by
  intro a b h
  simp only [toList_toUTF8] at h
  rw [← String.ofList_toList (s := a), ← String.ofList_toList (s := b), ← String.toByteArray_inj]
  simp only [String.toByteArray_ofList, List.utf8Encode, h]

theorem exists_lt_of_mem_utf8EncodeChar {c : Char} {byte : UInt8}
    (h : byte ∈ String.utf8EncodeChar c) : ∃ n < 255, byte = UInt8.ofNat n := by
  simp only [String.utf8EncodeChar] at h
  repeat' split at h
  all_goals simp only [List.mem_cons, List.not_mem_nil, or_false] at h
  · exact ⟨_, by omega, h⟩
  · rcases h with h | h <;> exact ⟨_, by omega, h⟩
  · rcases h with h | h | h <;> exact ⟨_, by omega, h⟩
  · rcases h with h | h | h | h <;> exact ⟨_, by omega, h⟩

theorem toNat_ne_of_mem_toList_toUTF8 {text : String} {byte : UInt8}
    (h : byte ∈ text.toUTF8.toList) : byte.toNat ≠ 255 := by
  rw [toList_toUTF8] at h
  obtain ⟨c, -, hc⟩ := List.mem_flatMap.mp h
  obtain ⟨n, hn, rfl⟩ := exists_lt_of_mem_utf8EncodeChar hc
  rw [UInt8.toNat_ofNat']
  omega

theorem delimited_textMarks (text : String) : Delimited textMarks text := by
  intro other rest others h
  have hend : ∀ t : String, 255 ∉ t.toUTF8.toList.map UInt8.toNat := by
    intro t ht
    obtain ⟨byte, hb, he⟩ := List.mem_map.mp ht
    exact toNat_ne_of_mem_toList_toUTF8 hb he
  simp only [textMarks, List.append_assoc, List.singleton_append] at h
  obtain ⟨hm, rfl⟩ := append_cons_inj_of_notMem_both (hend text) (hend other) h
  have hb := (List.map_inj_right fun _ _ => UInt8.toNat_inj.mp).mp hm
  exact ⟨toList_toUTF8_injective hb, rfl⟩

theorem polarityMark_inj {a b : Bool} (h : polarityMark a = polarityMark b) : a = b := by
  cases a <;> cases b <;> simp_all [polarityMark]

theorem FlagTest.delimited_marks (test : FlagTest) : Delimited FlagTest.marks test := by
  obtain ⟨flag, negated⟩ := test
  rintro ⟨other, polarity⟩ rest others h
  simp only [marks, List.cons_append, List.append_assoc, List.nil_append] at h
  obtain ⟨-, ht⟩ := List.cons.inj h
  obtain ⟨rfl, hr⟩ := delimited_textMarks flag other _ _ ht
  obtain ⟨hn, rfl⟩ := List.cons.inj hr
  obtain rfl := polarityMark_inj hn
  exact ⟨rfl, rfl⟩

namespace Guard

theorem marksOfParts_eq_flatMap (parts : List Guard) :
    marksOfParts parts = parts.flatMap marks := by
  induction parts with
  | nil => rfl
  | cons part parts ih => rw [marksOfParts, ih, List.flatMap_cons]

mutual

theorem delimited_marks (guard : Guard) : Delimited marks guard := by
  intro other rest others h
  match guard, other with
  | .test s, .test t =>
    obtain ⟨rfl, rfl⟩ := s.delimited_marks t _ _ h
    exact ⟨rfl, rfl⟩
  | .test _, .all _ | .all _, .test _ => simp [marks, FlagTest.marks] at h
  | .all ps, .all qs =>
    simp only [marks, marksOfParts_eq_flatMap] at h
    obtain ⟨-, hp⟩ := List.cons.inj h
    -- The numbers of parts come first, so the parts can be compared one by one.
    obtain ⟨rfl, rfl⟩ := Delimited.counted (forall_mem_delimited_marks ps) qs _ _ hp
    exact ⟨rfl, rfl⟩

theorem forall_mem_delimited_marks (parts : List Guard) :
    ∀ part ∈ parts, Delimited marks part := by
  match parts with
  | [] => exact nofun
  | part :: parts =>
    exact List.forall_mem_cons.mpr ⟨delimited_marks part, forall_mem_delimited_marks parts⟩

end

end Guard

theorem Head.marks_append_inj {head other : Head} {rest others : List Nat}
    (hk : head.kindMark = other.kindMark) (h : head.marks ++ rest = other.marks ++ others) :
    head = other ∧ rest = others := by
  match head, other with
  | .allOf, .allOf | .anyOf, .anyOf => exact ⟨rfl, (List.cons.inj h).2⟩
  | .allOf, .anyOf | .anyOf, .allOf => simp [marks] at h
  | .allOf, .when _ | .anyOf, .when _ | .when _, .allOf | .when _, .anyOf => simp [kindMark] at hk
  | .when s, .when t =>
    obtain ⟨rfl, rfl⟩ := s.delimited_marks t _ _ h
    exact ⟨rfl, rfl⟩

/-- What the events of an item add to a fingerprint. -/
def Item.marks (item : Item String) : List Nat := item.events.flatMap Event.marks

theorem fingerprint_eq (items : List (Item String)) :
    fingerprint items = items.length :: items.flatMap Item.marks := by
  rw [fingerprint, events_eq_itemEvents]
  congr 1
  induction items with
  | nil => rfl
  | cons item items ih => rw [itemEvents, List.flatMap_append, ih, List.flatMap_cons, Item.marks]

theorem Item.marks_group (head : Head) (members : List (Item String)) :
    (Item.group head members).marks = head.kindMark :: groupFingerprint head members := by
  simp [marks, events, groupFingerprint, DepSpec.fingerprint, events_eq_itemEvents, Event.marks]

mutual

theorem Item.delimited_marks (item : Item String) : Delimited Item.marks item := by
  intro other rest others h
  match item, other with
  | .term s, .term t =>
    simp only [Item.marks, Item.events, List.flatMap_singleton, Event.marks] at h
    obtain ⟨rfl, rfl⟩ := delimited_textMarks s t _ _ (List.cons.inj h).2
    exact ⟨rfl, rfl⟩
  | .term _, .group head _ | .group head _, .term _ =>
    cases head <;> simp [Item.marks, Item.events, Event.marks, Head.kindMark] at h
  | .group head members, .group other ys =>
    simp only [Item.marks_group, groupFingerprint, List.cons_append, List.append_assoc] at h
    obtain ⟨hk, h⟩ := List.cons.inj h
    obtain ⟨rfl, hm⟩ := Head.marks_append_inj hk h
    obtain ⟨rfl, rfl⟩ := delimited_fingerprint members ys _ _ hm
    exact ⟨rfl, rfl⟩

theorem delimited_fingerprint (items : List (Item String)) : Delimited fingerprint items := by
  rw [show fingerprint = _ from funext fingerprint_eq]
  exact Delimited.counted (forall_mem_delimited_marks items)

theorem forall_mem_delimited_marks (items : List (Item String)) :
    ∀ item ∈ items, Delimited Item.marks item := by
  match items with
  | [] => exact nofun
  | item :: items =>
    exact List.forall_mem_cons.mpr ⟨item.delimited_marks, forall_mem_delimited_marks items⟩

end

theorem Item.separated_fingerprint (x y : Item String) :
    Separated (x.same y = true) x.fingerprint y.fingerprint := by
  refine .of_append_inj (fun h => by rw [Item.same_iff.mp h]) fun rest others h => ?_
  obtain ⟨hs, -⟩ := delimited_fingerprint [x] [y] rest others h
  exact Item.same_iff.mpr (List.singleton_inj.mp hs)

theorem separated_groupFingerprint {head other : Head} (hk : head.kindMark = other.kindMark)
    (xs ys : List (Item String)) :
    Separated (sameGroup (head, xs) (other, ys) = true)
      (groupFingerprint head xs) (groupFingerprint other ys) := by
  simp only [sameGroup_iff, Prod.mk.injEq]
  refine .of_append_inj (fun h => by rw [h.1, h.2]) fun rest others h => ?_
  simp only [groupFingerprint, List.append_assoc] at h
  obtain ⟨hh, hm⟩ := Head.marks_append_inj hk h
  exact ⟨hh, (delimited_fingerprint xs ys _ _ hm).1⟩

theorem separated_conditionalFingerprint (p q : Guard) (xs ys : List (Item String)) :
    Separated (p = q ∧ sameInLockstep xs ys = true)
      (conditionalFingerprint p xs) (conditionalFingerprint q ys) := by
  simp only [sameInLockstep_iff]
  refine .of_append_inj (fun h => by rw [h.1, h.2]) fun rest others h => ?_
  simp only [conditionalFingerprint, List.append_assoc] at h
  obtain ⟨hg, hm⟩ := p.delimited_marks q _ _ h
  exact ⟨hg, (delimited_fingerprint xs ys _ _ hm).1⟩

/-- Of two items, two plain groups or two conditionals the fingerprints are equal if these are the
same; if not, neither fingerprint begins the other. Conditionals may be under guards of any form. -/
theorem fingerprints_separated :
    (∀ x y : Item String, Separated (x.same y = true) x.fingerprint y.fingerprint) ∧
    (∀ head other : Head, head.kindMark = other.kindMark → ∀ xs ys : List (Item String),
      Separated (sameGroup (head, xs) (other, ys) = true)
        (groupFingerprint head xs) (groupFingerprint other ys)) ∧
    (∀ (p q : Guard) (xs ys : List (Item String)),
      Separated (p = q ∧ sameInLockstep xs ys = true)
        (conditionalFingerprint p xs) (conditionalFingerprint q ys)) ∧
    ∀ (test : FlagTest) (xs : List (Item String)),
      conditionalFingerprint (.test test) xs = groupFingerprint (.when test) xs :=
  ⟨Item.separated_fingerprint, fun _ _ hk xs ys => separated_groupFingerprint hk xs ys,
    separated_conditionalFingerprint, fun _ _ => rfl⟩

/-- Where the members of the inner group end is told by their number only. -/
theorem fingerprints_separated_nested :
    let narrow : Item String := .group .anyOf [.group .allOf [.term "a"], .term "b"]
    let wide : Item String := .group .anyOf [.group .allOf [.term "a", .term "b"]]
    narrow.same wide = false ∧ ¬narrow.fingerprint <+: wide.fingerprint ∧
      Head.allOf.kindMark = Head.anyOf.kindMark ∧
      ¬groupFingerprint .allOf [narrow] <+: groupFingerprint .anyOf [narrow] := by
  intro narrow wide
  obtain ⟨hitems, hgroups, -, -⟩ := fingerprints_separated
  have hs : ¬narrow.same wide = true := by simp [Item.same_iff, narrow, wide]
  have hk : Head.allOf.kindMark = Head.anyOf.kindMark := rfl
  have hh : ¬sameGroup (.allOf, [narrow]) (.anyOf, [narrow]) = true := by simp [sameGroup_iff]
  exact ⟨Bool.eq_false_iff.mpr hs, ((hitems narrow wide).2 hs).1, hk,
    ((hgroups .allOf .anyOf hk [narrow] [narrow]).2 hh).1⟩

end DepSpec
