import CInterface.CommandLine.Plan

/-!
# The program

The outer layer: it reads the inputs that a command line names, carries out the plan for it, and prints. What a
run decides is decided by the plan. The system shows no mode of a file here, so every file that is written has the
mode of a new one.
-/

namespace CInterface

def SystemError.ofError : IO.Error → SystemError
  | .alreadyExists _ n reason | .otherError n reason | .resourceBusy n reason | .resourceVanished n reason
  | .unsupportedOperation n reason | .hardwareFault n reason | .unsatisfiedConstraints n reason
  | .illegalOperation n reason | .protocolError n reason | .timeExpired n reason | .interrupted _ n reason
  | .noFileOrDirectory _ n reason | .invalidArgument _ n reason | .permissionDenied _ n reason
  | .resourceExhausted _ n reason | .inappropriateType _ n reason | .noSuchThing _ n reason => .refused n.toNat reason
  | .unexpectedEof => .refused 5 "Input/output error"
  | .userError reason => .refused 5 reason

namespace Program

def attempt {α : Type} (act : IO α) : IO (Except SystemError α) := do
  return (← act.toBaseIO).mapError .ofError

def readFile (p : FilePath) : IO (List UInt8) := do
  let handle ← IO.FS.Handle.mk p.text .read
  return (← handle.readBinToEnd).toList

/-- The contents of the inputs, by their paths. -/
def readInputs (arguments : List String) : IO (List (FilePath × Except SystemError (List UInt8))) :=
  match CommandLine.readArguments arguments with
  | .error _ => return []
  | .ok s => s.inputs.mapM fun p => do return (p, ← attempt (readFile p))

/-- A file of one's own next to a destination. A name that is taken leads to the next number. -/
def createTemporary (destination : FilePath) : (tries number : Nat) → IO (String × IO.FS.Handle)
  | 0, _ => throw (.otherError 17 "File exists")
  | tries + 1, number => do
    let name := FilePath.temporaryName destination.name number
    let path : FilePath := ⟨destination.anchor, destination.parent.parts ++ [name]⟩
    match ← (IO.FS.Handle.mk path.text .writeNew).toBaseIO with
    | .ok handle => return (path.text, handle)
    | .error (.alreadyExists _ _ _) => createTemporary destination tries (number + 1)
    | .error e => throw e

def writeText (handle : IO.FS.Handle) (text : String) : IO Unit := do
  handle.putStr text
  handle.flush

/-- Writes a text to a temporary file, which then takes the place of the destination. -/
def replaceFile (destination : FilePath) (text : String) : IO Unit := do
  let (temporary, handle) ← createTemporary destination 1000 0
  try
    writeText handle text
    IO.FS.rename temporary destination.text
  catch e =>
    discard (IO.FS.removeFile temporary).toBaseIO
    throw e

def carryOut : CommandLine.Plan → IO CommandLine.Outcome
  | .done o => return o
  | .write destination text after => return after (← attempt (replaceFile destination text))
  | .broken => return ⟨1, "", CommandLine.programName ++ ": an option has no value\n"⟩

end Program

end CInterface

open CInterface

def main (arguments : List String) : IO UInt32 := do
  let inputs ← Program.readInputs arguments
  let files := fun p => (inputs.lookup p).getD (.error .noEntry)
  let environment ← IO.getEnv guardVariable
  let outcome ← Program.carryOut (CommandLine.plan arguments files environment)
  (← IO.getStderr).putStr outcome.errors
  (← IO.getStdout).putStr outcome.output
  return UInt32.ofNat outcome.exit
