import CInterface.Assembly
import CInterface.AtomicWrite
import CInterface.Writer

/-!
# Generating

The declarations of all modules, taken as one list, are assembled to a header and written. The header is
assembled, and what is left out is reported, before the writer is asked for. A generation into a file writes the
file after that, or leaves all files as they are.
-/

namespace CInterface

open Source
open Json (Members)

structure Generated where
  text : String
  header : Header
  diagnostics : List Diagnostic
  deriving DecidableEq, Repr

/-- An option that is named like something a generation is asked for apart from the options. -/
def reservedOption? (reserved : List String) (options : Members) : Option String :=
  (options.map (·.1)).find? (· ∈ reserved)

/-- What a generation makes of modules, and what happens meanwhile. -/
def generate [Memory] (modules : List Module) (target : String) (writer : Option String) (options : Members)
    (environment : Option String) : List Event × Except WriterError Generated :=
  match reservedOption? ["modules", "target", "writer"] options with
  | some name => ([], .error (.option (.unknown name)))
  | none =>
    let assembly := Assembly.of (modules.flatMap (·.declarations)) target
    let h := assembly.header
    match Writer.select writer options with
    | .error e => (assembly.events, .error e)
    | .ok w =>
      let events := assembly.events ++ w.events environment
      match w.write environment h with
      | .error e => (events, .error (.option e))
      | .ok text =>
        (events ++ [.emitted target h.items.length assembly.diagnostics.length],
          .ok ⟨text, h, assembly.diagnostics⟩)

inductive GenerationError where
  | writer (e : WriterError)
  | output (destination : FilePath) (e : SystemError)
  deriving DecidableEq, Repr

/-- Generates into a file. The destination is the target as it is spelled. `faults` says which calls of the system
fail, by the phase of the write they are made in. -/
def generateFileUnder [Memory] (faults : AtomicWrite.Phase → Option SystemError) (modules : List Module)
    (destination : String) (writer : Option String) (options : Members) (environment : Option String)
    (fs : FileSystem) :
    List Event × Except GenerationError Generated × FileSystem :=
  match reservedOption? ["destination"] options with
  | some name => ([], .error (.writer (.option (.unknown name))), fs)
  | none =>
    match generate modules destination writer options environment with
    | (events, .error e) => (events, .error (.writer e), fs)
    | (events, .ok g) =>
      let path := FilePath.ofString destination
      match AtomicWrite.finish (.ofText path g.text) faults .start fs with
      | (.error e, fs') => (events, .error (.output path e), fs')
      | (.ok (), fs') => (events ++ [.wrote destination], .ok g, fs')

/-- Generates into a file while no call fails but for the state of the file system. -/
def generateFile [Memory] (modules : List Module) (destination : String) (writer : Option String) (options : Members)
    (environment : Option String) (fs : FileSystem) :
    List Event × Except GenerationError Generated × FileSystem :=
  generateFileUnder (fun _ => none) modules destination writer options environment fs

end CInterface
