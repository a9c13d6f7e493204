import CInterface.AtomicWrite
import CInterface.CommandLine.Settings
import CInterface.Generation

/-!
# Running a command line

A command line, the contents of the input files and the environment decide everything: what is printed, or what
is to be written and what is printed after that. Inputs are read in order and the first one at fault ends the run.
A run that comes to need an option that was left void breaks down.
-/

namespace CInterface.CommandLine

open Source

/-- What a run leaves behind apart from files. -/
structure Outcome where
  exit : Nat
  output : String
  errors : String
  deriving DecidableEq, Repr

def Settings.threshold (s : Settings) : Level :=
  if s.verbose then .debug else if s.quiet then .error else .warning

def Settings.report (s : Settings) (events : List Event) : String :=
  String.join ((events.filter fun e => s.threshold.rank ≤ e.level.rank).map fun e =>
    e.level.label ++ ": " ++ e.message ++ "\n")

/-- Why an input is not read. -/
inductive InputError where
  | unreadable (p : FilePath) (e : SystemError)
  | undecodable (p : FilePath) (f : Text.DecodeFault)
  | invalid (p : FilePath) (e : Description.LoadError)
  deriving DecidableEq, Repr

def InputError.message : InputError → String
  | .unreadable p e => e.report ("cannot read " ++ p.text) (": " ++ Text.quoted p.text)
  | .undecodable p f => "cannot read " ++ p.text ++ ": " ++ f.message
  | .invalid p e => e.message p.text

abbrev Files := FilePath → Except SystemError (List UInt8)

def loadFile (files : Files) (frontEnd : FrontEnd) (p : FilePath) : Except InputError Module := do
  let octets ← (files p).mapError (.unreadable p)
  let text ← (Text.decode octets).mapError (.undecodable p)
  (frontEnd.load (String.ofList (Text.normalizeNewlines text.toList)) p.text).mapError (.invalid p)

/-- The member of an option that is given. A void one is an empty list, which no writer can use. -/
def Choice.member (name : String) : Choice String → Json.Members
  | .absent => []
  | .void => [(name, .array [])]
  | .given value => [(name, .string value)]

def Settings.options (s : Settings) : Json.Members :=
  if s.writer = .given Format.c.name then s.guard.member "guard" ++ s.guardPrefix.member "guard_prefix" else []

/-- The target of a header that is printed: the name of the first input with the suffix of headers. -/
def Settings.target (s : Settings) : String :=
  match s.inputs with
  | [] => ""
  | p :: _ => p.stem ++ ".h"

/-- What is left to do: nothing but to print, or to write a file first. Or the run breaks down. -/
inductive Plan where
  | done (o : Outcome)
  | write (destination : FilePath) (text : String) (after : Except SystemError Unit → Outcome)
  | broken

def Settings.failure (s : Settings) (events : List Event) (message : String) : Outcome :=
  ⟨1, "", s.report (events ++ [.failed message])⟩

/-- The end of a run that succeeded; what was left out is counted. -/
def Settings.success (s : Settings) (events : List Event) (output : String) (skipped : Nat) : Outcome :=
  ⟨0, output, s.report (events ++ if skipped = 0 then [] else [.skipped skipped])⟩

def Settings.planGeneration [Memory] (s : Settings) (modules : List Module) (target writer : String)
    (environment : Option String) (proceed : List Event → Generated → Plan) : Plan :=
  match generate modules target (some writer) s.options environment with
  | (events, .ok g) => proceed events g
  | (events, .error e) =>
    match e.message? with
    | some message => .done (s.failure events message)
    | none => .broken

def Settings.planModules [Memory] (s : Settings) (modules : List Module) (environment : Option String) : Plan :=
  match s.output, s.writer with
  | .absent, .given writer =>
    s.planGeneration modules s.target writer environment fun events g =>
      .done (s.success events g.text g.diagnostics.length)
  | .given p, .given writer =>
    s.planGeneration modules p.text writer environment fun events g =>
      .write p g.text fun
        | .ok () => s.success (events ++ [.wrote p.text]) "" g.diagnostics.length
        | .error e => s.failure events (AtomicWrite.message p e)
  | _, _ => .broken

def Settings.plan [Memory] (s : Settings) (files : Files) (environment : Option String) : Plan :=
  match s.frontEnd with
  | .given name =>
    match FrontEnd.select (some name) with
    | .error e => .done (s.failure [] (e.message .frontEnd))
    | .ok frontEnd =>
      match s.inputs.mapM (loadFile files frontEnd) with
      | .error e => .done (s.failure [] e.message)
      | .ok modules => s.planModules modules environment
  | _ => .broken

def writerList : String :=
  String.join (Writer.registry.info.map fun i =>
    i.name ++ ": " ++ i.description ++ (if i.isDefault then " (default)" else "") ++ "\n")

def programName : String := "abiheader"

/-- The plan for a command line. -/
def plan [Memory] (arguments : List String) (files : Files) (environment : Option String) : Plan :=
  match readArguments arguments with
  | .error .help => .done ⟨0, "usage: " ++ programName ++ " [options] INPUT ...\n", ""⟩
  | .error (.usage e) => .done ⟨2, "", programName ++ ": error: " ++ e.message ++ "\n"⟩
  | .ok s => if s.listWriters then .done ⟨0, writerList, ""⟩ else s.plan files environment

/-- Carries out a plan in a file system. `faults` says which calls of the system fail, by the phase of the write they
are made in. A run that breaks down has no outcome. -/
def Plan.carryOut (faults : AtomicWrite.Phase → Option SystemError) (fs : FileSystem) :
    Plan → Option Outcome × FileSystem
  | .done o => (some o, fs)
  | .write destination text after =>
    let (result, fs') := AtomicWrite.finish (.ofText destination text) faults .start fs
    (some (after result), fs')
  | .broken => (none, fs)

/-- Runs a command line in a file system. `files` says how files are read. -/
def runUnder [Memory] (files : Files) (faults : AtomicWrite.Phase → Option SystemError) (arguments : List String)
    (environment : Option String) (fs : FileSystem) : Option Outcome × FileSystem :=
  (plan arguments files environment).carryOut faults fs

/-- Runs a command line while no call fails but for the state of the file system. -/
def run [Memory] (arguments : List String) (environment : Option String) (fs : FileSystem) :
    Option Outcome × FileSystem :=
  runUnder fs.read (fun _ => none) arguments environment fs

end CInterface.CommandLine
