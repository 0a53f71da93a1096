import DepSpec.Proofs.Concatenation

/-! Reading with a reader of terms. It is asked for the words of terms in their order, until it
refuses one or another fault ends the reading; what it makes of them is only put in their place. So
a reader of terms that refuses nothing it is shown changes nothing else, and any other ends the
reading at the first word that it refuses. -/

namespace DepSpec

variable {α β : Type} {allowed : AllowedOperators}

instance : DecidablePred IsTermWord := fun _ => decidable_of_iff _ Token.ofString_eq_term_iff

namespace Reader

variable {readTerm other : String → Except String α} {reader next : Reader α}

theorem Step.congr {word : String} (h : Step allowed readTerm reader word next)
    (ha : IsTermWord word → other word = readTerm word) :
    Step allowed other reader word next := by
  cases h with
  | openPlain ho => exact .openPlain ho
  | openAwaited ho => exact .openAwaited ho
  | await ho hi => exact .await ho hi
  | close ho hg hne => exact .close ho hg hne
  | term ho ht hr => exact .term ho ht ((ha ht).trans hr)

/-- Reading gets no further: the words are at their end, or the next one is refused. -/
inductive Stuck (allowed : AllowedOperators) (readTerm : String → Except String α)
    (reader : Reader α) : List String → Prop
  | ended : Stuck allowed readTerm reader []
  | refused {word : String} {rest : List String} {fault : ParseFault}
      (h : Refuses allowed readTerm reader word fault) :
      Stuck allowed readTerm reader (word :: rest)

theorem Refuses.congr {word : String} {fault : ParseFault} {value : α}
    (hr : readTerm word = .ok value) (h : Refuses allowed readTerm reader word fault) :
    Refuses allowed other reader word fault := by
  cases h with
  | unopened ho hw => exact .unopened ho hw
  | noGroup ho hg => exact .noGroup ho hg
  | noMember ho hg hm => exact .noMember ho hg hm
  | forbidden ho hw => exact .forbidden ho hw
  | malformed ho hw => exact .malformed ho hw
  | rejected ho ht hn =>
    rw [hr] at hn
    cases hn

/-- A reader of terms that refuses nothing is not to blame, so any other is stuck there as well. -/
theorem Stuck.run_eq {rest : List String} (hp : ∀ word, ∃ value, readTerm word = .ok value)
    (h : Stuck allowed readTerm reader rest) :
    reader.run allowed other rest = reader.run allowed readTerm rest := by
  cases h with
  | ended => rfl
  | @refused word rest fault hr =>
    obtain ⟨value, hv⟩ := hp word
    have ho : Refuses allowed other reader word fault := hr.congr hv
    rw [ho.run_eq, hr.run_eq]

end Reader

def Outcome.map {ε : Type} (f : α → β) (outcome : Outcome ε α) : Outcome ε β :=
  ⟨outcome.result.map (Spec.map f), outcome.shown⟩

namespace Reader

variable {readTerm : String → Except String α}

end Reader

end DepSpec
