import CInterface.Decimal.Digits
import CInterface.Header.Forward
import CInterface.Header.Include

/-!
# The text of a header

An include guard around a linkage block around the sections. An empty line follows every section, and every
enumeration and struct; sections without content leave no trace. The only numbers are the values of enumerations, and
a header has no text if one of them has too many digits.
-/

namespace CInterface

def indent : String := "    "

def Typedef.line (d : Typedef) : String := "typedef " ++ d.type.text ++ " " ++ d.name ++ ";"

/-- A value of an enumeration, bare if it continues from the one before, however many digits its number has. -/
def Enumerator.line (v : Enumerator) : String :=
  match v.value with
  | some n => indent ++ v.name ++ " = " ++ toString n ++ ","
  | none => indent ++ v.name ++ ","

/-- Tag and type share one name. -/
def EnumDefinition.lines (d : EnumDefinition) : List String :=
  ["typedef enum " ++ d.name ++ " \x7b"] ++ d.values.map Enumerator.line ++ ["\x7d " ++ d.name ++ ";"]

def Slot.text (s : Slot) : String := s.type.text ++ " " ++ s.name

def StructDefinition.lines (d : StructDefinition) : List String :=
  ["typedef struct " ++ d.name ++ " \x7b"] ++ d.fields.map (fun f => indent ++ f.text ++ ";")
    ++ ["\x7d " ++ d.name ++ ";"]

/-- A prototype; without parameters it says so. -/
def Prototype.line (d : Prototype) : String :=
  let parameters := if d.parameters.isEmpty then "void" else ", ".intercalate (d.parameters.map Slot.text)
  d.returnType.text ++ " " ++ d.name ++ "(" ++ parameters ++ ");"

def Item.lines : Item → List String
  | .typedef d => [d.line]
  | .enumeration d => d.lines
  | .struct d => d.lines
  | .prototype d => [d.line]

def Item.text (i : Item) : String := "\n".intercalate i.lines

def forwardLine (name : String) : String := "typedef struct " ++ name ++ " " ++ name ++ ";"

namespace Header

/-- Lines with an empty line behind them, if there are any. -/
def closed (lines : List String) : List String := if lines.isEmpty then [] else lines ++ [""]

def typedefSection (h : Header) : List String :=
  h.incompleteNames.map forwardLine ++ h.earlyStructs.map forwardLine ++ h.typedefs.map Typedef.line

def opening (guard : String) : List String :=
  ["#ifndef " ++ guard, "#define " ++ guard, "", "#ifdef __cplusplus", "extern \"C\" \x7b", "#endif", ""]

def closing : List String := ["#ifdef __cplusplus", "\x7d", "#endif", "", "#endif"]

/-- All lines under a guard. -/
def lines (guard : String) (h : Header) : List String :=
  opening guard
    ++ closed (h.includes.map Include.directive)
    ++ closed h.typedefSection
    ++ h.enumerations.flatMap (closed ·.lines)
    ++ h.structs.flatMap (closed ·.lines)
    ++ closed (h.prototypes.map Prototype.line)
    ++ closing

/-- The text under a guard, with a line end behind its last line, however many digits its numbers have. -/
def text (guard : String) (h : Header) : String := "\n".intercalate (h.lines guard) ++ "\n"

def values (h : Header) : List Int := h.enumerations.flatMap fun d => d.values.filterMap Enumerator.value

/-- The text under a guard. There is none if a number in it has too many digits. -/
def text? (guard : String) (h : Header) : Option String :=
  if ∀ n ∈ h.values, Decimal.digitCount n ≤ Decimal.maxDigits then some (h.text guard) else none

end Header

end CInterface
