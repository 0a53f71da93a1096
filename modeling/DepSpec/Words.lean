/-! The words of a text are its maximal runs of characters that are not blank.
Texts are put together again with one space between neighbours. -/

namespace DepSpec

/-- The characters with the Unicode property White_Space. -/
def isBlank (c : Char) : Bool :=
  let n := c.toNat
  (9 ≤ n && n ≤ 13) || n == 0x20 || n == 0x85 || n == 0xa0 || n == 0x1680 ||
  (0x2000 ≤ n && n ≤ 0x200a) || n == 0x2028 || n == 0x2029 || n == 0x202f || n == 0x205f ||
  n == 0x3000

/-- A text cut into words from its right end; the first word may still grow. -/
structure Cut where
  growing : List Char
  finished : List (List Char)

def Cut.words (cut : Cut) : List (List Char) :=
  if cut.growing.isEmpty then cut.finished else cut.growing :: cut.finished

def Cut.extend (c : Char) (cut : Cut) : Cut :=
  if isBlank c then ⟨[], cut.words⟩ else ⟨c :: cut.growing, cut.finished⟩

def cutWords (cs : List Char) : Cut :=
  cs.foldr Cut.extend ⟨[], []⟩

def words (text : String) : List String :=
  (cutWords text.toList).words.map String.ofList

/-- Puts a space before a text, but none in front of the first text that is not empty. -/
def appendSpaced (out part : String) : String :=
  if out.isEmpty then part else out ++ " " ++ part

def spaced (parts : List String) : String :=
  parts.foldl appendSpaced ""

/-- Not empty and without a blank. -/
def IsWord (text : String) : Prop :=
  text ≠ "" ∧ ∀ c ∈ text.toList, isBlank c = false

theorem cutWords_cons (c : Char) (cs : List Char) :
    cutWords (c :: cs) = (cutWords cs).extend c := by
  rw [cutWords, List.foldr_cons, ← cutWords]

theorem foldr_extend (cs : List Char) (finished : List (List Char)) :
    cs.foldr Cut.extend ⟨[], finished⟩ =
      ⟨(cutWords cs).growing, (cutWords cs).finished ++ finished⟩ := by
  induction cs with
  | nil => rfl
  | cons c cs ih =>
    rw [List.foldr_cons, ih, cutWords_cons]
    by_cases hb : isBlank c
    · by_cases hg : (cutWords cs).growing.isEmpty <;> simp [Cut.extend, Cut.words, hb, hg]
    · simp [Cut.extend, hb]

theorem mem_cut_words {cut : Cut} {word : List Char} :
    word ∈ cut.words ↔ (word = cut.growing ∧ word ≠ []) ∨ word ∈ cut.finished := by
  unfold Cut.words
  by_cases hg : cut.growing = []
  · simp [hg]
  · have he : cut.growing.isEmpty = false := by simpa using hg
    simp only [he, Bool.false_eq_true, if_false, List.mem_cons]
    refine or_congr_left ⟨fun h => ⟨h, ?_⟩, And.left⟩
    rwa [h]

theorem cutWords_not_blank (cs : List Char) :
    (∀ c ∈ (cutWords cs).growing, isBlank c = false) ∧
      ∀ word ∈ (cutWords cs).finished, word ≠ [] ∧ ∀ c ∈ word, isBlank c = false := by
  induction cs with
  | nil => simp [cutWords]
  | cons c cs ih =>
    obtain ⟨hg, hf⟩ := ih
    rw [cutWords_cons, Cut.extend]
    by_cases hb : isBlank c = true
    · rw [if_pos hb]
      refine ⟨by simp, fun word hw => ?_⟩
      rcases mem_cut_words.mp hw with ⟨rfl, hne⟩ | hw
      · exact ⟨hne, hg⟩
      · exact hf word hw
    · rw [if_neg hb]
      refine ⟨fun d hd => ?_, hf⟩
      rcases List.mem_cons.mp hd with rfl | hd
      · simpa using hb
      · exact hg d hd

theorem isWord_of_mem_words {text word : String} (h : word ∈ words text) : IsWord word := by
  obtain ⟨cs, hcs, rfl⟩ := List.mem_map.mp h
  obtain ⟨hg, hf⟩ := cutWords_not_blank text.toList
  have hw : cs ≠ [] ∧ ∀ c ∈ cs, isBlank c = false := by
    rcases mem_cut_words.mp hcs with ⟨rfl, hne⟩ | hcs
    · exact ⟨hne, hg⟩
    · exact hf cs hcs
  exact ⟨by simpa using hw.1, by simpa using hw.2⟩

theorem words_append_space (s t : String) : words (s ++ " " ++ t) = words s ++ words t := by
  have hb : isBlank ' ' = true := by decide
  have hs : (cutWords (s.toList ++ ' ' :: t.toList)).words =
      (cutWords s.toList).words ++ (cutWords t.toList).words := by
    rw [cutWords, List.foldr_append, ← cutWords, cutWords_cons, Cut.extend, if_pos hb,
      foldr_extend]
    by_cases hg : (cutWords s.toList).growing.isEmpty <;> simp [Cut.words, hg]
  simp [words, hs]

theorem cutWords_of_isBlank_eq_false {cs : List Char} (h : ∀ c ∈ cs, isBlank c = false) :
    cutWords cs = ⟨cs, []⟩ := by
  induction cs with
  | nil => rfl
  | cons c cs ih =>
    rw [cutWords_cons, ih fun d hd => h d (List.mem_cons_of_mem _ hd)]
    simp [Cut.extend, h c List.mem_cons_self]

theorem IsWord.words_eq {text : String} (h : IsWord text) : words text = [text] := by
  have hne : text.toList.isEmpty = false := by simpa using h.1
  simp [words, cutWords_of_isBlank_eq_false h.2, Cut.words, hne]

theorem words_appendSpaced {part : String} (out : String) (h : IsWord part) :
    words (appendSpaced out part) = words out ++ [part] := by
  by_cases he : out = ""
  · subst he
    exact h.words_eq
  · have hf : out.isEmpty = false := by simpa using he
    rw [appendSpaced, if_neg (by simp [hf]), words_append_space, h.words_eq]

/-- Words put together are found again. -/
theorem words_spaced {parts : List String} (h : ∀ part ∈ parts, IsWord part) :
    words (spaced parts) = parts := by
  have hf : ∀ out, words (parts.foldl appendSpaced out) = words out ++ parts := by
    intro out
    induction parts generalizing out with
    | nil => simp
    | cons part parts ih =>
      rw [List.foldl_cons, ih fun p hp => h p (List.mem_cons_of_mem _ hp),
        words_appendSpaced out (h part List.mem_cons_self), List.append_assoc]
      rfl
  exact hf ""

theorem foldl_appendSpaced {out : String} (h : out ≠ "") (parts : List String) :
    parts.foldl appendSpaced out = " ".intercalate (out :: parts) := by
  induction parts generalizing out with
  | nil => rfl
  | cons part parts ih =>
    have he : out.isEmpty = false := by simpa using h
    have hn : out ++ " " ++ part ≠ "" := by simp
    rw [List.foldl_cons, appendSpaced, if_neg (by simp [he]), ih hn]
    cases parts <;> simp [String.intercalate_cons_cons, String.append_assoc]

theorem spaced_eq_intercalate {parts : List String} (h : ∀ part ∈ parts, part ≠ "") :
    spaced parts = " ".intercalate parts := by
  cases parts with
  | nil => rfl
  | cons part parts => exact foldl_appendSpaced (h part List.mem_cons_self) parts

end DepSpec
