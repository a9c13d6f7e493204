import CInterface.Source.TypeExpr

/-!
# Declarations

What a module declares: type aliases, enumerations, structs and functions, each with the marks that decide
whether it is meant for export. Functions are exported under a symbol that may differ from their name.
-/

namespace CInterface.Source

structure Location where
  file : String
  line : Int
  column : Option Int
  deriving DecidableEq, Repr

def Location.text (l : Location) : String :=
  let place := l.file ++ ":" ++ toString l.line
  match l.column with
  | some column => place ++ ":" ++ toString column
  | none => place

/-- A place with a name and a type: a struct field or a parameter. -/
structure Member where
  name : String
  type : TypeExpr
  deriving DecidableEq, Repr

def Member.text (m : Member) : String := m.name ++ ": " ++ m.type.text

/-- A name for a type. Type parameters make it generic. -/
structure Alias where
  name : String
  target : TypeExpr
  typeParams : List String
  isPublic : Bool
  location : Option Location
  deriving DecidableEq, Repr

structure Variant where
  name : String
  value : Option Int
  deriving DecidableEq, Repr

def Variant.text (v : Variant) : String :=
  match v.value with
  | some value => v.name ++ " = " ++ toString value
  | none => v.name

/-- An enumeration without fields. The width hint is information only. -/
structure Enumeration where
  name : String
  variants : List Variant
  isPublic : Bool
  reprC : Bool
  reprHint : Option String
  location : Option Location
  deriving DecidableEq, Repr

/-- A struct. The order of its fields is their layout. -/
structure Struct where
  name : String
  fields : List Member
  isPublic : Bool
  reprC : Bool
  location : Option Location
  deriving DecidableEq, Repr

structure Function where
  name : String
  parameters : List Member
  returnType : TypeExpr
  isPublic : Bool
  hasCLinkage : Bool
  isUnmangled : Bool
  exportName : Option String
  location : Option Location
  deriving DecidableEq, Repr

/-- The symbol a function is exported under: its own name unless another one is given that is not empty. -/
def Function.symbol (f : Function) : String :=
  match f.exportName with
  | some symbol => if symbol.isEmpty then f.name else symbol
  | none => f.name

inductive Declaration where
  | alias (a : Alias)
  | enumeration (e : Enumeration)
  | struct (s : Struct)
  | function (f : Function)
  deriving DecidableEq, Repr

/-- The kinds of declarations, by the words of the generated header. -/
inductive Kind where
  | typedef
  | enumeration
  | struct
  | function
  deriving DecidableEq, Repr

def Kind.label : Kind → String
  | .typedef => "typedef"
  | .enumeration => "enum"
  | .struct => "struct"
  | .function => "function"

namespace Declaration

def kind : Declaration → Kind
  | .alias _ => .typedef
  | .enumeration _ => .enumeration
  | .struct _ => .struct
  | .function _ => .function

def name : Declaration → String
  | .alias a => a.name
  | .enumeration e => e.name
  | .struct s => s.name
  | .function f => f.name

def location : Declaration → Option Location
  | .alias a => a.location
  | .enumeration e => e.location
  | .struct s => s.location
  | .function f => f.location

def isPublic : Declaration → Bool
  | .alias a => a.isPublic
  | .enumeration e => e.isPublic
  | .struct s => s.isPublic
  | .function f => f.isPublic

/-- Whether a declaration is marked for export: public, and with the layout or the linkage of C where its kind
has one. -/
def isEligible : Declaration → Bool
  | .alias a => a.isPublic
  | .enumeration e => e.isPublic && e.reprC
  | .struct s => s.isPublic && s.reprC
  | .function f => f.isPublic && f.hasCLinkage && f.isUnmangled

/-- The name that a declaration takes in a header. -/
def headerName : Declaration → String
  | .alias a => a.name
  | .enumeration e => e.name
  | .struct s => s.name
  | .function f => f.symbol

end Declaration

def Alias.text (a : Alias) : String :=
  let params := if a.typeParams.isEmpty then "" else "<" ++ ", ".intercalate a.typeParams ++ ">"
  "type " ++ a.name ++ params ++ " = " ++ a.target.text

def Function.text (f : Function) : String :=
  "fn " ++ f.name ++ "(" ++ ", ".intercalate (f.parameters.map Member.text) ++ ") -> " ++ f.returnType.text

def Declaration.text : Declaration → String
  | .alias a => a.text
  | .enumeration e => "enum " ++ e.name
  | .struct s => "struct " ++ s.name
  | .function f => f.text

structure Module where
  path : String
  declarations : List Declaration
  deriving DecidableEq, Repr

def Module.text (m : Module) : String :=
  "Module(" ++ m.path ++ ", " ++ toString m.declarations.length ++ " declarations)"

end CInterface.Source
