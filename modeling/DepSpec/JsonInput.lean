import DepSpec.Evaluation
import DepSpec.JsonRecord
import DepSpec.MetadataKey

/-! Flag selections, allowed operators and metadata keys read from JSON texts. -/

namespace DepSpec

open Json

namespace FlagSelection

def jsonFields : List (RecordField FlagSelection) :=
  [⟨"enabled", fun selection => do
      return { selection with enabled := sortedNames (← readTexts) }⟩,
    ⟨"restrict_to", fun selection => do
      return { selection with restriction := (← readOptional readTexts).map sortedNames }⟩]

def ofJson (text : String) : Except Fault FlagSelection :=
  readAll (readRecord jsonFields default) text

/-- What is said before the reason why a text gives no selection. -/
def faultHeading : String := "Invalid flag settings: "

end FlagSelection

namespace AllowedOperators

def jsonFields : List (RecordField AllowedOperators) :=
  [⟨"allow_any_of", fun allowed => do return { allowed with anyOf := ← readBool }⟩,
    ⟨"allow_conditionals", fun allowed => do
      return { allowed with conditional := ← readBool }⟩]

def ofJson (text : String) : Except Fault AllowedOperators :=
  readAll (readRecord jsonFields default) text

end AllowedOperators

def MetadataKey.ofJson (text : String) : Except Fault MetadataKey :=
  readAll (readName ofName?) text

end DepSpec
