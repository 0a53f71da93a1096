import DepSpec.Spec
import DepSpec.Words

/-! The canonical text of a specification. An all-of group keeps its parentheses only directly
inside an any-of group, where its members would otherwise be taken one by one. -/

namespace DepSpec

variable {α : Type}

/-- How the members of a group are set off in the text. -/
inductive Enclosure where
  | bare
  | round
  | choice
deriving DecidableEq

def Enclosure.closing : Enclosure → List String
  | .bare => []
  | .round | .choice => [")"]

/-- The groups that are open, innermost first, and the parts of the text so far, last first. -/
structure Rendering where
  within : List Enclosure
  parts : List String

namespace Rendering

def start : Rendering := ⟨[], []⟩

def enclosureOf (within : List Enclosure) : Head → Enclosure
  | .allOf => if within.head? = some .choice then .round else .bare
  | .anyOf => .choice
  | .when _ => .round

/-- What introduces the members of a group, last part first. -/
def opening (enclosure : Enclosure) : Head → List String
  | .allOf => if enclosure = .bare then [] else ["("]
  | .anyOf => ["(", "||"]
  | .when test => ["(", test.text ++ "?"]

def add (text : α → String) (state : Rendering) : Event α → Rendering
  | .term value => { state with parts := text value :: state.parts }
  | .enter head _ =>
    let enclosure := enclosureOf state.within head
    ⟨enclosure :: state.within, opening enclosure head ++ state.parts⟩
  | .leave =>
    match state.within with
    | [] => state
    | enclosure :: within => ⟨within, enclosure.closing ++ state.parts⟩

end Rendering

namespace Spec

/-- The parts of the text in order: the texts of terms, operators and parentheses. -/
def parts (text : α → String) (spec : Spec α) : List String :=
  ((events spec.items).foldl (Rendering.add text) Rendering.start).parts.reverse

def render (text : α → String) (spec : Spec α) : String :=
  spaced (spec.parts text)

def text (spec : Spec String) : String :=
  spec.render id

end Spec

end DepSpec
