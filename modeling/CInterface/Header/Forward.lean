import CInterface.Header.Basic

/-!
# Forward declarations

The names that have to be declared before their first use: incomplete types, and structs of the header that are
used by a typedef, by themselves or by a struct before them.
-/

namespace CInterface.Header

/-- The incomplete types, in order of first use. -/
def incompleteNames (h : Header) : List String :=
  ((h.references.filter (·.baseType.isIncomplete)).map (·.baseType.name)).eraseDups

def fieldNames (s : StructDefinition) : List String := s.fields.map (·.type.baseType.name)

/-- The structs of a list that a field of themselves or of an earlier one uses, in order of use. -/
def usedEarly : List StructDefinition → List String
  | [] => []
  | s :: rest => (fieldNames s).filter (· ∈ s.name :: rest.map (·.name)) ++ usedEarly rest

/-- The structs that are used before they are defined, in order of first use. -/
def earlyStructs (h : Header) : List String :=
  ((h.typedefs.map (·.type.baseType.name)).filter (· ∈ h.structs.map (·.name))
    ++ usedEarly h.structs).eraseDups

end CInterface.Header
