import CInterface.Diagnostic
import CInterface.Text.Quoted

/-!
# Events

What happens during a generation that someone may want to know. An event has a level, the stage it comes from
and a message.
-/

namespace CInterface

open Source

inductive Level where
  | debug
  | info
  | warning
  | error
  deriving DecidableEq, Repr

def Level.label : Level → String
  | .debug => "DEBUG"
  | .info => "INFO"
  | .warning => "WARNING"
  | .error => "ERROR"

def Level.rank : Level → Nat
  | .debug => 0
  | .info => 1
  | .warning => 2
  | .error => 3

inductive Stage where
  | selection
  | resolution
  | generation
  | guard
  | command
  deriving DecidableEq, Repr

/-- The variable of the environment that gives the guard prefix. -/
def guardVariable : String := "ABIHEADER_GUARD_PREFIX"

inductive Event where
  | notMarked (kind : Kind) (name : String)
  | skipping (stage : Stage) (d : Diagnostic)
  | argumentsIgnored (name : String) (args : List TypeExpr)
  | unknownLayout (name : String)
  | emitted (target : String) (declarations refused : Nat)
  | wrote (destination : String)
  | prefixIgnored (value : String)
  | failed (message : String)
  | skipped (count : Nat)
  deriving DecidableEq, Repr

namespace Event

def level : Event → Level
  | .notMarked _ _ => .debug
  | .skipping _ _ => .warning
  | .argumentsIgnored _ _ => .warning
  | .unknownLayout _ => .debug
  | .emitted _ _ _ => .info
  | .wrote _ => .debug
  | .prefixIgnored _ => .warning
  | .failed _ => .error
  | .skipped _ => .warning

def stage : Event → Stage
  | .notMarked _ _ => .selection
  | .skipping stage _ => stage
  | .argumentsIgnored _ _ => .resolution
  | .unknownLayout _ => .resolution
  | .emitted _ _ _ => .generation
  | .wrote _ => .generation
  | .prefixIgnored _ => .guard
  | .failed _ => .command
  | .skipped _ => .command

def message : Event → String
  | .notMarked kind name => kind.label ++ " " ++ name ++ " is not marked for export"
  | .skipping _ d => "skipping " ++ d.text
  | .argumentsIgnored name args =>
    "type arguments are not supported, " ++ (TypeExpr.named name args).text ++ " is resolved as " ++ name
  | .unknownLayout name => name ++ " has no known layout, treating it as opaque"
  | .emitted target declarations refused =>
    target ++ ": " ++ toString declarations ++ " declarations emitted, " ++ toString refused ++ " skipped"
  | .wrote destination => "wrote " ++ destination
  | .prefixIgnored value =>
    guardVariable ++ "=" ++ Text.quoted value ++ " is not a valid C identifier, ignoring"
  | .failed message => message
  | .skipped count => toString count ++ " declaration(s) skipped"

end Event

end CInterface
