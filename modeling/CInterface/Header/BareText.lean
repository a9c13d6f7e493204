import CInterface.Header.Document
import CInterface.Text.Quoted

/-!
# Texts in the place of types

A text is neither a type nor a declaration and is refused as such, in quotes. Under pointers it is only looked at
when it is written out, as the name of something unknown.
-/

namespace CInterface

inductive Expected where
  | typeExpr
  | declaration
  | cType
  deriving DecidableEq, Repr

def Expected.noun : Expected → String
  | .typeExpr => "type expression"
  | .declaration => "declaration"
  | .cType => "C type expression"

def Expected.refusal (expected : Expected) (s : String) : String :=
  "not a " ++ expected.noun ++ ": " ++ Text.quoted s

/-- A text in the place of a base type, and the qualifiers of the pointer levels over it, the innermost first. -/
structure BareText where
  text : String
  levels : List (List String)
  deriving DecidableEq, Repr

namespace BareText

/-- The text with its pointers, or the message that refuses it when there are none. -/
def render (t : BareText) : Except String String :=
  if t.levels.isEmpty then .error (Expected.cType.refusal t.text)
  else .ok (t.levels.foldl CType.star t.text)

def document (t : BareText) : Json.Value :=
  t.levels.foldl pointerDocument
    (.object [("kind", .string "unknown"), ("repr", .string (Text.quoted t.text))])

end BareText

end CInterface
