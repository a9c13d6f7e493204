import CInterface.Source.Declaration

/-!
# Diagnostics

Why a declaration that is meant for export is left out. Each diagnostic names the declaration and its place, and
has a kind and a reason.
-/

namespace CInterface

open Source

namespace Diagnostic

inductive Cause where
  /-- An alias with type parameters or with a type application as its target. -/
  | unsupportedAlias (a : Alias)
  /-- The name in the header is taken by an earlier declaration. -/
  | duplicateName (holderKind : Kind) (holder : String)
  /-- Following aliases comes back to one that is being followed. -/
  | aliasCycle (chain : List String)
  /-- A type that was itself left out is used. -/
  | dependency (name : String)
  deriving DecidableEq, Repr

def Cause.kind : Cause → String
  | .unsupportedAlias _ => "unsupported-alias"
  | .duplicateName _ _ => "duplicate-name"
  | .aliasCycle _ => "alias-cycle"
  | .dependency _ => "alias-cycle"

def cycleText (chain : List String) : String := "alias cycle: " ++ " -> ".intercalate chain

def Cause.reason : Cause → String
  | .unsupportedAlias a => "generic type alias is not supported: " ++ a.text
  | .duplicateName kind holder => "name already exported by " ++ kind.label ++ " " ++ holder
  | .aliasCycle chain => cycleText chain
  | .dependency name => "depends on " ++ name ++ ", which was dropped for an alias cycle"

/-- One line with the place, if it is known, the name, the reason and the kind. -/
def line (name kind reason : String) (location : Option Location) : String :=
  let place := match location with
    | some l => l.text ++ ": "
    | none => ""
  place ++ name ++ ": " ++ reason ++ " [" ++ kind ++ "]"

end Diagnostic

structure Diagnostic where
  name : String
  cause : Diagnostic.Cause
  location : Option Location
  deriving DecidableEq, Repr

namespace Diagnostic

def of (d : Declaration) (cause : Cause) : Diagnostic := ⟨d.name, cause, d.location⟩

def text (d : Diagnostic) : String := line d.name d.cause.kind d.cause.reason d.location

end Diagnostic

end CInterface
