import CInterface.Header.Basic
import CInterface.Json.Value

/-!
# The document of a header

A header as a JSON value. Qualifiers, incompleteness, numbers, columns and places are only there when there is
something to say.
-/

namespace CInterface

open Json (Value Members)
open Source (Location)

/-- The member of a list that may be left out when it is empty. -/
def qualifierMember (qualifiers : List String) : Members :=
  if qualifiers.isEmpty then [] else [("qualifiers", .array (qualifiers.map .string))]

def BaseType.document (b : BaseType) : Value :=
  .object ([("kind", .string "ctype"), ("name", .string b.name)] ++ qualifierMember b.qualifiers
    ++ if b.isIncomplete then [("opaque", .bool true)] else [])

def pointerDocument (pointee : Value) (qualifiers : List String) : Value :=
  .object ([("kind", .string "pointer"), ("pointee", pointee)] ++ qualifierMember qualifiers)

def CType.document : CType → Value
  | .base b => b.document
  | .pointer pointee qualifiers => pointerDocument pointee.document qualifiers

def locationMember (location : Option Location) : Members :=
  match location with
  | none => []
  | some l =>
    let column := match l.column with
      | some n => [("column", .int n)]
      | none => []
    [("location", .object ([("file", .string l.file), ("line", .int l.line)] ++ column))]

def Slot.document (s : Slot) : Value := .object [("name", .string s.name), ("type", s.type.document)]

def Enumerator.document (v : Enumerator) : Value :=
  let value := match v.value with
    | some n => [("value", .int n)]
    | none => []
  .object ([("name", .string v.name)] ++ value)

def Typedef.document (d : Typedef) : Value :=
  .object ([("kind", .string "typedef"), ("name", .string d.name), ("type", d.type.document)]
    ++ locationMember d.location)

def EnumDefinition.document (d : EnumDefinition) : Value :=
  .object ([("kind", .string "enum"), ("name", .string d.name),
    ("values", .array (d.values.map Enumerator.document))] ++ locationMember d.location)

def StructDefinition.document (d : StructDefinition) : Value :=
  .object ([("kind", .string "struct"), ("name", .string d.name),
    ("fields", .array (d.fields.map Slot.document))] ++ locationMember d.location)

def Prototype.document (d : Prototype) : Value :=
  .object ([("kind", .string "function"), ("name", .string d.name),
    ("return_type", d.returnType.document), ("parameters", .array (d.parameters.map Slot.document))]
    ++ locationMember d.location)

def Header.document (h : Header) : Value :=
  .object [("target", .string h.target),
    ("typedefs", .array (h.typedefs.map Typedef.document)),
    ("enums", .array (h.enumerations.map EnumDefinition.document)),
    ("structs", .array (h.structs.map StructDefinition.document)),
    ("functions", .array (h.prototypes.map Prototype.document))]

end CInterface
