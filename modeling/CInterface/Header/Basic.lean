import CInterface.Header.CType
import CInterface.Source.Declaration

/-!
# Headers

The content of one generated header: typedefs, enumerations, structs and function prototypes, in that order, with
every type already a C type.
-/

namespace CInterface

open Source (Location)

/-- A name with a C type: a struct field or a parameter. -/
structure Slot where
  name : String
  type : CType
  deriving DecidableEq, Repr

structure Typedef where
  name : String
  type : CType
  location : Option Location
  deriving DecidableEq, Repr

/-- A value of an enumeration. Without a number it continues from the value before it. -/
structure Enumerator where
  name : String
  value : Option Int
  deriving DecidableEq, Repr

structure EnumDefinition where
  name : String
  values : List Enumerator
  location : Option Location
  deriving DecidableEq, Repr

structure StructDefinition where
  name : String
  fields : List Slot
  location : Option Location
  deriving DecidableEq, Repr

structure Prototype where
  name : String
  returnType : CType
  parameters : List Slot
  location : Option Location
  deriving DecidableEq, Repr

/-- A declaration of a header. -/
inductive Item where
  | typedef (d : Typedef)
  | enumeration (d : EnumDefinition)
  | struct (d : StructDefinition)
  | prototype (d : Prototype)
  deriving DecidableEq, Repr

namespace Item

def name : Item → String
  | .typedef d => d.name
  | .enumeration d => d.name
  | .struct d => d.name
  | .prototype d => d.name

/-- The types that a declaration uses, in the order of its text. -/
def references : Item → List CType
  | .typedef d => [d.type]
  | .enumeration _ => []
  | .struct d => d.fields.map Slot.type
  | .prototype d => d.returnType :: d.parameters.map Slot.type

def typedef? : Item → Option Typedef
  | .typedef d => some d
  | _ => none

def enumeration? : Item → Option EnumDefinition
  | .enumeration d => some d
  | _ => none

def struct? : Item → Option StructDefinition
  | .struct d => some d
  | _ => none

def prototype? : Item → Option Prototype
  | .prototype d => some d
  | _ => none

end Item

/-- A header for a target, usually the name of the file to be written. -/
structure Header where
  target : String
  typedefs : List Typedef
  enumerations : List EnumDefinition
  structs : List StructDefinition
  prototypes : List Prototype
  deriving DecidableEq, Repr

namespace Header

/-- The header of a list of declarations, each in the section of its kind. -/
def ofItems (target : String) (items : List Item) : Header :=
  ⟨target, items.filterMap Item.typedef?, items.filterMap Item.enumeration?, items.filterMap Item.struct?,
    items.filterMap Item.prototype?⟩

def items (h : Header) : List Item :=
  h.typedefs.map .typedef ++ h.enumerations.map .enumeration ++ h.structs.map .struct
    ++ h.prototypes.map .prototype

/-- All types that the declarations use, in the order of the text. -/
def references (h : Header) : List CType := h.items.flatMap Item.references

def summary (h : Header) : String :=
  "CHeader(" ++ h.target ++ ", " ++ toString h.items.length ++ " declarations)"

end Header

end CInterface
