import CInterface.Header.Basic

/-!
# Support headers

The standard headers that introduce the names of primitives. A header includes one if it uses a name of it.
-/

namespace CInterface

open Source

inductive Include where
  | stdint
  | stdbool
  deriving DecidableEq, Repr

namespace Include

def file : Include → String
  | .stdint => "stdint.h"
  | .stdbool => "stdbool.h"

def names : Include → List String
  | .stdint =>
    ["int8_t", "int16_t", "int32_t", "int64_t", "uint8_t", "uint16_t", "uint32_t", "uint64_t", "intptr_t",
      "uintptr_t"]
  | .stdbool => ["bool"]

def directive (i : Include) : String := "#include <" ++ i.file ++ ">"

end Include

def Header.baseNames (h : Header) : List String := h.references.map (·.baseType.name)

/-- The support headers that a header needs, in fixed order. -/
def Header.includes (h : Header) : List Include :=
  [Include.stdint, .stdbool].filter fun i => h.baseNames.any (· ∈ i.names)

/-- Every primitive is void, a floating-point type or a name of a support header. -/
theorem Source.Primitive.cName_cases (p : Primitive) :
    p.cName = "void" ∨ p.cName = "float" ∨ p.cName = "double" ∨ ∃ i : Include, p.cName ∈ i.names := by
  cases p
  case void => exact .inl rfl
  case f32 => exact .inr (.inl rfl)
  case f64 => exact .inr (.inr (.inl rfl))
  case bool => exact .inr (.inr (.inr ⟨.stdbool, by decide⟩))
  all_goals exact .inr (.inr (.inr ⟨.stdint, by decide⟩))

end CInterface
