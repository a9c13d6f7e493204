import CInterface.Json.Reader
import CInterface.Text.Quoted

/-!
# What can be wrong with a description

A fault has a cause and a place: the document, a declaration by its index, or a declaration by its index and
name. Its message names the file; a message that already begins with the file name is not given it again.
-/

namespace CInterface.Description

inductive Shape where
  | nothing
  | flag
  | whole
  | real
  | text
  | list
  | object
  deriving DecidableEq, Repr

def Shape.word : Shape → String
  | .nothing => "NoneType"
  | .flag => "bool"
  | .whole => "int"
  | .real => "float"
  | .text => "str"
  | .list => "list"
  | .object => "dict"

def Shape.of : Json.Value → Shape
  | .null => .nothing
  | .bool _ => .flag
  | .int _ => .whole
  | .float _ => .real
  | .string _ => .text
  | .array _ => .list
  | .object _ => .object

inductive Cause where
  | missing (key : String)
  | wrongShape (key : String) (expected actual : Shape)
  | itemShape (key : String) (index : Nat)
  | typeShape
  | unknownPrimitive (name : String)
  | unknownTypeKind (tag : String)
  | fieldType
  | parameterType
  | unknownKind (kind : String)
  deriving DecidableEq, Repr

def Cause.message : Cause → String
  | .missing key => "missing " ++ Text.quoted key
  | .wrongShape key expected actual =>
    Text.quoted key ++ " must be " ++ expected.word ++ ", got " ++ actual.word
  | .itemShape key index => key ++ "[" ++ toString index ++ "] must be an object"
  | .typeShape => "type must be a string or an object"
  | .unknownPrimitive name => "unknown primitive " ++ Text.quoted name
  | .unknownTypeKind tag => "unknown type kind " ++ Text.quoted tag
  | .fieldType => "field missing 'type'"
  | .parameterType => "parameter missing 'type'"
  | .unknownKind kind => "unknown declaration kind " ++ Text.quoted kind

inductive Place where
  | document
  | declaration (index : Nat)
  | named (index : Nat) (name : String)
  deriving DecidableEq, Repr

def Place.text (filename : String) : Place → String
  | .document => filename
  | .declaration index => "declarations[" ++ toString index ++ "]"
  | .named index name => "declarations[" ++ toString index ++ "] (" ++ name ++ ")"

inductive Error where
  | topLevel
  | fault (place : Place) (cause : Cause)
  deriving DecidableEq, Repr

/-- A message of a fault in a file of the given name. -/
def inFile (filename message : String) : String :=
  if filename.toList.isPrefixOf message.toList then message else filename ++ ": " ++ message

def Error.message (filename : String) : Error → String
  | .topLevel => filename ++ ": top level must be an object"
  | .fault place cause => inFile filename (place.text filename ++ ": " ++ cause.message)

inductive LoadError where
  | json (e : Json.ReadError)
  | description (e : Error)
  deriving DecidableEq, Repr

def LoadError.message (filename : String) : LoadError → String
  | .json (.oversized digits) => (Json.ReadError.oversized digits).message
  | .json e => filename ++ ": invalid JSON: " ++ e.message
  | .description e => e.message filename

end CInterface.Description
