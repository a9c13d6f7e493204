import CInterface.Event
import CInterface.FilePath
import CInterface.Text.Blank
import CInterface.Text.Identifier

/-!
# Include guards

The guard of a header is derived from the name of its target alone, so it is the same in every run. The prefix can
be given; otherwise the environment may give it, if it holds an identifier.
-/

namespace CInterface.Guard

def defaultPrefix : String := "abiheader_gen"

/-- The prefix that the environment asks for, or the usual one. -/
def environmentPrefix (environment : Option String) : String :=
  match environment with
  | none => defaultPrefix
  | some value => if Text.isIdentifierLine (Text.trim value) then Text.trim value else defaultPrefix

/-- An environment that is set but holds no identifier is reported. -/
def environmentEvents (environment : Option String) : List Event :=
  match environment with
  | none => []
  | some value =>
    if value.isEmpty || Text.isIdentifierLine (Text.trim value) then [] else [.prefixIgnored value]

def prefixInForce (given environment : Option String) : String :=
  given.getD (environmentPrefix environment)

def events (given environment : Option String) : List Event :=
  if given.isSome then [] else environmentEvents environment

def stem (target : String) : String :=
  let name := (FilePath.ofString target).stem
  if name.isEmpty then "header" else Text.sanitized name

/-- The guard for a target. -/
def token (target : String) (given environment : Option String) : String :=
  prefixInForce given environment ++ "_" ++ stem target ++ "_h"

end CInterface.Guard
