import CInterface.Description.Field
import CInterface.Json.Display
import CInterface.Source.Declaration

/-!
# Reading interface descriptions

A description is a JSON object with an optional module name and a list of declarations. A type is an object, or
a string that names a primitive in either spelling and otherwise a declared or unknown type.
-/

namespace CInterface.Description

open Source

/-- The type that a string alone stands for. -/
def shorthand (name : String) : TypeExpr :=
  match Primitive.ofSpelling? name with
  | some p => .primitive p
  | none => .named name []

mutual

def readType : Json.Value → Except Cause TypeExpr
  | .string name => .ok (shorthand name)
  | .object members => do
    let tag ← require members "kind" .text
    if tag = "primitive" then
      let name ← require members "name" .text
      match Primitive.ofSpelling? name with
      | some p => .ok (.primitive p)
      | none => .error (.unknownPrimitive name)
    else if tag = "pointer" then
      match readPointee members with
      | none => .error (.missing "pointee")
      | some pointee =>
        let isMutable ← optional members "mutable" .flag
        return .pointer (isMutable.getD true) (← pointee)
    else if tag = "named" then
      let name ← require members "name" .text
      return .named name (← readArguments members)
    else .error (.unknownTypeKind tag)
  | _ => .error .typeShape

/-- The type under the key of a pointee, if the key is there. -/
def readPointee : Json.Members → Option (Except Cause TypeExpr)
  | [] => none
  | (key, v) :: rest => if key = "pointee" then some (readType v) else readPointee rest

def readArguments : Json.Members → Except Cause (List TypeExpr)
  | [] => .ok []
  | (key, v) :: rest =>
    if key = "args" then
      match v with
      | .null => .ok []
      | .array vs => readTypes vs
      | v => .error (.wrongShape "args" .list (.of v))
    else readArguments rest

def readTypes : List Json.Value → Except Cause (List TypeExpr)
  | [] => .ok []
  | v :: vs => do
    let t ← readType v
    return t :: (← readTypes vs)

end

def readLocation (members : Json.Members) : Except Cause (Option Location) := do
  match ← optional members "location" .object with
  | none => return none
  | some place =>
    let file ← require place "file" .text
    let line ← require place "line" .whole
    let column ← optional place "column" .whole
    return some ⟨file, line, column⟩

def readVariant (members : Json.Members) : Except Cause Variant := do
  let name ← require members "name" .text
  return ⟨name, ← optional members "value" .whole⟩

/-- A field or a parameter; `untyped` is the fault of one without a type. -/
def readMember (untyped : Cause) (members : Json.Members) : Except Cause Member :=
  match members.find? "type" with
  | none => .error untyped
  | some v => do
    let name ← require members "name" .text
    return ⟨name, ← readType v⟩

def readAlias (members : Json.Members) (name : String) (isPublic : Bool) (location : Option Location) :
    Except Cause Alias :=
  match members.find? "target" with
  | none => .error (.missing "target")
  | some v => do
    let params ← optional members "type_params" .list
    let target ← readType v
    return ⟨name, target, (params.getD []).map Json.Value.display, isPublic, location⟩

def readEnumeration (members : Json.Members) (name : String) (isPublic : Bool) (location : Option Location) :
    Except Cause Enumeration := do
  let variants ← (← objectList members "variants").mapM readVariant
  let reprC ← optionalFlag members "repr_c"
  let reprHint ← optional members "repr_hint" .text
  return ⟨name, variants, isPublic, reprC, reprHint, location⟩

def readStruct (members : Json.Members) (name : String) (isPublic : Bool) (location : Option Location) :
    Except Cause Struct := do
  let fields ← (← objectList members "fields").mapM (readMember .fieldType)
  let reprC ← optionalFlag members "repr_c"
  return ⟨name, fields, isPublic, reprC, location⟩

/-- A return type that is absent or null is void. -/
def readReturnType (members : Json.Members) : Except Cause TypeExpr :=
  match members.find? "return_type" with
  | none => .ok (.primitive .void)
  | some .null => .ok (.primitive .void)
  | some v => readType v

def readFunction (members : Json.Members) (name : String) (isPublic : Bool) (location : Option Location) :
    Except Cause Function := do
  let parameters ← (← objectList members "parameters").mapM (readMember .parameterType)
  let returnType ← readReturnType members
  let hasCLinkage ← optionalFlag members "extern"
  let isUnmangled ← optionalFlag members "no_mangle"
  let exportName ← optional members "export_name" .text
  return ⟨name, parameters, returnType, isPublic, hasCLinkage, isUnmangled, exportName, location⟩

/-- A declaration of a given kind and name. -/
def readBody (members : Json.Members) (kind name : String) : Except Cause Declaration := do
  let isPublic ← optionalFlag members "public"
  let location ← readLocation members
  if kind = "typedef" then return .alias (← readAlias members name isPublic location)
  else if kind = "enum" then return .enumeration (← readEnumeration members name isPublic location)
  else if kind = "struct" then return .struct (← readStruct members name isPublic location)
  else if kind = "function" then return .function (← readFunction members name isPublic location)
  else throw (.unknownKind kind)

/-- The declaration at an index. Faults before its name is known are placed by the index alone. -/
def readDeclaration (index : Nat) (members : Json.Members) : Except Error Declaration := do
  let kind ← (require members "kind" .text).mapError (.fault (.declaration index))
  let name ← (require members "name" .text).mapError (.fault (.declaration index))
  (readBody members kind name).mapError (.fault (.named index name))

def readDeclarations (index : Nat) : List Json.Members → Except Error (List Declaration)
  | [] => .ok []
  | members :: rest => do
    let d ← readDeclaration index members
    return d :: (← readDeclarations (index + 1) rest)

/-- The module that a value describes. Without a name of its own it is named for its file. -/
def readModule (filename : String) : Json.Value → Except Error Module
  | .object members => do
    let path ← (optional members "module" .text).mapError (.fault .document)
    let declarations ← (objectList members "declarations").mapError (.fault .document)
    return ⟨path.getD filename, ← readDeclarations 0 declarations⟩
  | _ => .error .topLevel

def load (text filename : String) : Except LoadError Module := do
  let v ← (Json.parse text).mapError .json
  (readModule filename v).mapError .description

end CInterface.Description
