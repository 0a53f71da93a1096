/-! The metadata keys whose values are dependency specifications, and the operators a reader
allows. -/

namespace DepSpec

inductive MetadataKey where
  | depend
  | rdepend
  | pdepend
  | bdepend
  | idepend
  | srcUri
  | license
  | requiredUse
  | restrict
  | properties
deriving DecidableEq

namespace MetadataKey

def all : List MetadataKey :=
  [.depend, .rdepend, .pdepend, .bdepend, .idepend, .srcUri, .license, .requiredUse, .restrict,
    .properties]

def name : MetadataKey → String
  | .depend => "DEPEND"
  | .rdepend => "RDEPEND"
  | .pdepend => "PDEPEND"
  | .bdepend => "BDEPEND"
  | .idepend => "IDEPEND"
  | .srcUri => "SRC_URI"
  | .license => "LICENSE"
  | .requiredUse => "REQUIRED_USE"
  | .restrict => "RESTRICT"
  | .properties => "PROPERTIES"

def ofName? (name : String) : Option MetadataKey :=
  all.find? fun key => key.name == name

def allowsAnyOf : MetadataKey → Bool
  | .srcUri | .restrict | .properties => false
  | _ => true

theorem mem_all (key : MetadataKey) : key ∈ all := by
  cases key <;> decide

theorem ofName?_name (key : MetadataKey) : ofName? key.name = some key := by
  cases key <;> decide

theorem name_of_ofName? {name : String} {key : MetadataKey} (h : ofName? name = some key) :
    key.name = name := by
  simpa using List.find?_some h

end MetadataKey

structure AllowedOperators where
  anyOf : Bool
  conditional : Bool
deriving DecidableEq

namespace AllowedOperators

def default : AllowedOperators := ⟨true, true⟩

def forKey (key : MetadataKey) : AllowedOperators := ⟨key.allowsAnyOf, true⟩

end AllowedOperators

end DepSpec
