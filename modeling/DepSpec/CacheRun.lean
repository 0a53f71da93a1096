import DepSpec.Cache
import Mathlib.Data.List.DropRight

/-! Runs of a cache: what a caller does with it, one call after the other, and the log of what came
of each call. -/

namespace DepSpec

variable {α : Type}

/-- What a caller may do. The reader of terms may recall the words it was shown in this call. -/
inductive CacheCall (α : Type) where
  | request (readTerm : List String → String → Except String α) (text : String)
  | get (text : String)
  | clear

inductive CacheEvent (α : Type) where
  | requested (text : String) (result : Except Unparseable (Entry α)) (shown : List String)
  | got (text : String) (found : Option (Entry α))
  | cleared

namespace CacheEvent

def isCleared : CacheEvent α → Bool
  | .cleared => true
  | _ => false

/-- The text of a request that succeeded, and the entry that it was answered with. -/
def success? : CacheEvent α → Option (String × Entry α)
  | .requested text (.ok entry) _ => some (text, entry)
  | _ => none

/-- The entry that was handed out, after the text that it was handed out for. -/
def handedOut? : CacheEvent α → Option (String × Entry α)
  | .requested text (.ok entry) _ => some (text, entry)
  | .got text (some entry) => some (text, entry)
  | _ => none

end CacheEvent

/-- A cache and what came of the calls so far, first to last. -/
structure CacheRun (α : Type) where
  cache : Cache α
  log : List (CacheEvent α)

namespace CacheRun

def start (allowed : AllowedOperators) : CacheRun α := ⟨.ofAllowed allowed, []⟩

def note (run : CacheRun α) (cache : Cache α) (event : CacheEvent α) : CacheRun α :=
  ⟨cache, run.log ++ [event]⟩

def perform (run : CacheRun α) : CacheCall α → CacheRun α
  | .request readTerm text =>
    let request := run.cache.requestRecalling readTerm text
    run.note request.cache (.requested text request.result request.shown)
  | .get text => run.note run.cache (.got text (run.cache.get? text))
  | .clear => run.note run.cache.clear .cleared

/-- The run of a new cache through some calls. -/
def ofCalls (allowed : AllowedOperators) (calls : List (CacheCall α)) : CacheRun α :=
  calls.foldl perform (start allowed)

/-- The requests that succeeded since the cache was cleared last, first to last. -/
def successes (run : CacheRun α) : List (String × Entry α) :=
  (run.log.rtakeWhile fun event => !event.isCleared).filterMap CacheEvent.success?

section Request

variable {run : CacheRun α} {readTerm : List String → String → Except String α} {text : String}

theorem perform_request_of_held {entry : Entry α} (h : run.cache.get? text = some entry) :
    run.perform (.request readTerm text) =
      run.note run.cache (.requested text (.ok entry) []) := by
  simp [perform, Cache.requestRecalling, h]

theorem perform_request_of_read {spec : Spec α} (h : run.cache.get? text = none)
    (hr : (parseRecalling run.cache.allowed readTerm text).result = .ok spec) :
    run.perform (.request readTerm text) =
      run.note (run.cache.insert text spec).2
        (.requested text (.ok (run.cache.insert text spec).1)
          (parseRecalling run.cache.allowed readTerm text).shown) := by
  simp [perform, Cache.requestRecalling, Cache.store, h, hr]

theorem perform_request_of_refused {error : Unparseable} (h : run.cache.get? text = none)
    (hr : (parseRecalling run.cache.allowed readTerm text).result = .error error) :
    run.perform (.request readTerm text) =
      run.note run.cache (.requested text (.error error)
        (parseRecalling run.cache.allowed readTerm text).shown) := by
  simp [perform, Cache.requestRecalling, Cache.store, h, hr]

end Request

theorem allowed_perform (run : CacheRun α) (call : CacheCall α) :
    (run.perform call).cache.allowed = run.cache.allowed := by
  cases call with
  | request readTerm text =>
    cases hg : run.cache.get? text with
    | some entry => rw [perform_request_of_held hg, note]
    | none =>
      cases hr : (parseRecalling run.cache.allowed readTerm text).result with
      | ok spec => rw [perform_request_of_read hg hr, note, Cache.allowed_insert]
      | error error => rw [perform_request_of_refused hg hr, note]
  | _ => rfl

theorem allowed_ofCalls (allowed : AllowedOperators) (calls : List (CacheCall α)) :
    (ofCalls allowed calls).cache.allowed = allowed :=
  List.foldlRecOn (motive := fun run : CacheRun α => run.cache.allowed = allowed) calls perform rfl
    fun run h call _ => (run.allowed_perform call).trans h

end CacheRun

end DepSpec
