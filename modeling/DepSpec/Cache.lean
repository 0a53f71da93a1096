import DepSpec.Parse
import Std.Data.HashMap

/-! A cache of specifications by their text. A text is read once; a text that cannot be read leaves
the cache as it is. -/

namespace DepSpec

variable {α : Type}

/-- A specification held by a cache. Entries of one cache are the same entry if and only if their
numbers are equal. -/
structure Entry (α : Type) where
  number : Nat
  spec : Spec α

structure Cache (α : Type) where
  allowed : AllowedOperators
  entries : Std.HashMap String (Entry α)
  nextNumber : Nat

/-- The answer to a request, the words shown to the reader of terms, and the cache afterwards. -/
structure Request (α : Type) where
  result : Except Unparseable (Entry α)
  shown : List String
  cache : Cache α

namespace Cache

def ofAllowed (allowed : AllowedOperators) : Cache α := ⟨allowed, ∅, 0⟩

def get? (cache : Cache α) (text : String) : Option (Entry α) :=
  cache.entries[text]?

def size (cache : Cache α) : Nat := cache.entries.size

def clear (cache : Cache α) : Cache α := { cache with entries := ∅ }

/-- Inserts a specification if the text has no entry yet, and gives the entry that it has then. -/
def insert (cache : Cache α) (text : String) (spec : Spec α) : Entry α × Cache α :=
  match cache.get? text with
  | some entry => (entry, cache)
  | none =>
    let entry : Entry α := ⟨cache.nextNumber, spec⟩
    (entry, { cache with
      entries := cache.entries.insert text entry
      nextNumber := cache.nextNumber + 1 })

/-- Keeps what was read of a text that was not in the cache, if that is a specification. -/
def store (cache : Cache α) (text : String) (outcome : Outcome Unparseable α) : Request α :=
  match outcome.result with
  | .ok spec =>
    let (entry, cache) := cache.insert text spec
    ⟨.ok entry, outcome.shown, cache⟩
  | .error error => ⟨.error error, outcome.shown, cache⟩

/-- A request with a reader of terms that may recall the words it was shown before. -/
@[inline]
def requestRecalling (cache : Cache α) (readTerm : List String → String → Except String α)
    (text : String) : Request α :=
  match cache.get? text with
  | some entry => ⟨.ok entry, [], cache⟩
  | none => cache.store text (parseRecalling cache.allowed readTerm text)

def request (cache : Cache α) (readTerm : String → Except String α) (text : String) :
    Request α :=
  cache.requestRecalling (fun _ => readTerm) text

theorem get?_ofAllowed (allowed : AllowedOperators) (text : String) :
    (ofAllowed allowed : Cache α).get? text = none :=
  Std.HashMap.getElem?_empty

theorem get?_clear (cache : Cache α) (text : String) : cache.clear.get? text = none :=
  Std.HashMap.getElem?_empty

section Insert

variable {cache : Cache α} {text : String}

theorem insert_of_held {entry : Entry α} (h : cache.get? text = some entry) (spec : Spec α) :
    cache.insert text spec = (entry, cache) := by
  rw [insert, h]

theorem insert_of_missing (h : cache.get? text = none) (spec : Spec α) :
    cache.insert text spec =
      (⟨cache.nextNumber, spec⟩, { cache with
        entries := cache.entries.insert text ⟨cache.nextNumber, spec⟩
        nextNumber := cache.nextNumber + 1 }) := by
  rw [insert, h]

theorem allowed_insert (cache : Cache α) (text : String) (spec : Spec α) :
    (cache.insert text spec).2.allowed = cache.allowed := by
  cases h : cache.get? text with
  | some entry => rw [insert_of_held h]
  | none => rw [insert_of_missing h]

theorem get?_insert (cache : Cache α) (text other : String) (spec : Spec α) :
    (cache.insert text spec).2.get? other =
      if text = other then some (cache.insert text spec).1 else cache.get? other := by
  cases h : cache.get? text with
  | some entry =>
    rw [insert_of_held h]
    by_cases he : text = other
    · rw [if_pos he, ← he, h]
    · rw [if_neg he]
  | none =>
    rw [insert_of_missing h]
    simp [get?, Std.HashMap.getElem?_insert]

theorem size_insert (h : cache.get? text = none) (spec : Spec α) :
    (cache.insert text spec).2.size = cache.size + 1 := by
  have hm : text ∉ cache.entries := by
    rw [Std.HashMap.mem_iff_isSome_getElem?]
    simpa [get?] using h
  rw [insert_of_missing h, size, Std.HashMap.size_insert, if_neg hm, size]

end Insert

end Cache

end DepSpec
