import CInterface.CommandLine.Word
import CInterface.FilePath
import CInterface.FrontEnd
import CInterface.Writer

/-!
# Settings

What a command line asks for. The operands have to stand together: the first run of them is the list of inputs,
and any later one is not recognized. An option that is repeated takes its last value. Being verbose and being
quiet exclude each other. Two dashes are a separator even where they are joined to an option as its value, and
leave the option void.
-/

namespace CInterface.CommandLine

/-- What is known of the value of an option: not given, given without a value, or given. -/
inductive Choice (α : Type) where
  | absent
  | void
  | given (a : α)
  deriving DecidableEq, Repr

structure Settings where
  inputs : List FilePath
  output : Choice FilePath
  frontEnd : Choice String
  writer : Choice String
  guard : Choice String
  guardPrefix : Choice String
  listWriters : Bool
  verbose : Bool
  quiet : Bool
  deriving DecidableEq, Repr

def Choice.ofDefault (default : Option String) : Choice String :=
  match default with
  | some name => .given name
  | none => .absent

def Settings.initial : Settings :=
  { inputs := [], output := .absent, frontEnd := .ofDefault FrontEnd.registry.default,
    writer := .ofDefault Writer.registry.default, guard := .absent, guardPrefix := .absent, listWriters := false,
    verbose := false, quiet := false }

/-- Why reading a command line stops early. -/
inductive Stop where
  | help
  | usage (e : UsageError)
  deriving DecidableEq, Repr

def Choice.ofValue {α : Type} (read : String → α) (value : String) : Choice α :=
  if value = "--" then .void else .given (read value)

/-- The choice of a value that must be one of some names. -/
def choose (s : Switch) (names : List String) (value : String) : Except Stop (Choice String) :=
  match Choice.ofValue id value with
  | .given name => if name ∈ names then .ok (.given name) else .error (.usage (.invalidChoice s name names))
  | choice => .ok choice

/-- The settings after an option, with its value if it takes one. -/
def Settings.apply (settings : Settings) (s : Switch) (value : String) : Except Stop Settings :=
  match s with
  | .help => .error .help
  | .output => .ok { settings with output := .ofValue .ofString value }
  | .frontEnd => do return { settings with frontEnd := ← choose s FrontEnd.registry.names value }
  | .writer => do return { settings with writer := ← choose s Writer.registry.names value }
  | .guard => .ok { settings with guard := .ofValue id value }
  | .guardPrefix => .ok { settings with guardPrefix := .ofValue id value }
  | .listWriters => .ok { settings with listWriters := true }
  | .verbose =>
    if settings.quiet then .error (.usage (.conflict .verbose .quiet))
    else .ok { settings with verbose := true }
  | .quiet =>
    if settings.verbose then .error (.usage (.conflict .quiet .verbose))
    else .ok { settings with quiet := true }

/-- How an argument with options ends: with its options, with the value of one, or with an option that waits for
the operand behind it. -/
inductive Ending where
  | plain
  | value (s : Switch) (text : String)
  | waiting (s : Switch)
  deriving DecidableEq, Repr

/-- What one argument with options asks for: options without a value, in order, and its ending. -/
structure Bundle where
  flags : List Switch
  ending : Ending
  deriving DecidableEq, Repr

namespace Bundle

def ofSwitch (s : Switch) : Bundle := if s.takesValue then ⟨[], .waiting s⟩ else ⟨[s], .plain⟩

/-- An option with the letters behind it: its value, or else further options. -/
def ofLetters (s : Switch) : List Char → Except UsageError Bundle
  | [] => .ok (ofSwitch s)
  | c :: rest =>
    if s.takesValue then .ok ⟨[], .value s (String.ofList (c :: rest))⟩
    else
      match Switch.ofLetter? c with
      | none => .error (.needlessValue s (String.ofList (c :: rest)))
      | some next => (ofLetters next rest).map fun b => { b with flags := s :: b.flags }

/-- An option with the value set off by an equals sign. -/
def ofOption (s : Switch) : Option String → Except UsageError Bundle
  | none => .ok (ofSwitch s)
  | some value => if s.takesValue then .ok ⟨[], .value s value⟩ else .error (.needlessValue s value)

end Bundle

def applyAll (settings : Settings) : List Switch → Except Stop Settings
  | [] => .ok settings
  | s :: rest => do applyAll (← settings.apply s "") rest

/-- Where the inputs are: not yet met, being read, or behind. -/
inductive Operands where
  | ahead
  | current
  | behind
  deriving DecidableEq, Repr

/-- What has been read of a command line: the settings, the operands of the inputs and what is not recognized,
both in order, and the last options if they wait for a value. -/
structure Progress where
  settings : Settings
  operands : Operands
  inputs : List String
  extras : List String
  pending : Option (List Switch × Switch)
  deriving DecidableEq, Repr

namespace Progress

def initial : Progress := ⟨.initial, .ahead, [], [], none⟩

def addOperand (p : Progress) (text : String) : Progress :=
  match p.operands with
  | .behind => { p with extras := p.extras ++ [text] }
  | _ => { p with operands := .current, inputs := p.inputs ++ [text] }

def addExtra (p : Progress) (text : String) : Progress := { p with extras := p.extras ++ [text] }

/-- An option ends a run of operands. -/
def endOperands (p : Progress) : Progress :=
  { p with operands := if p.operands = .current then .behind else p.operands }

def apply (p : Progress) (flags : List Switch) (s : Switch) (value : String) : Except Stop Progress := do
  let settings ← applyAll p.settings flags
  return { p with settings := ← settings.apply s value, pending := none }

/-- Options that wait for a value are applied together with it, the others at once. -/
def addBundle (p : Progress) (b : Bundle) : Except Stop Progress :=
  let p := p.endOperands
  match b.ending with
  | .plain => do return { p with settings := ← applyAll p.settings b.flags }
  | .value s text => p.apply b.flags s text
  | .waiting s => .ok { p with pending := some (b.flags, s) }

/-- Reads a word. Only an operand is a value for an option that waits. -/
def step (p : Progress) (w : Word) : Except Stop Progress :=
  match p.pending, w with
  | some (flags, s), .operand text => p.apply flags s text
  | some (_, s), _ => .error (.usage (.missingValue s))
  | none, .operand text => .ok (p.addOperand text)
  | none, .separator => .ok (p.addOperand "--")
  | none, .unknown text => .ok (p.endOperands.addExtra text)
  | none, .letters s rest => do p.addBundle (← (Bundle.ofLetters s rest).mapError .usage)
  | none, .option s value => do p.addBundle (← (Bundle.ofOption s value).mapError .usage)

/-- The settings at the end of a command line. The first separator is no input. -/
def finish (p : Progress) : Except Stop Settings := do
  if let some (_, s) := p.pending then throw (.usage (.missingValue s))
  unless p.extras.isEmpty do throw (.usage (.unrecognized p.extras))
  let settings := { p.settings with inputs := (p.inputs.erase "--").map .ofString }
  if settings.inputs.isEmpty && !settings.listWriters then throw (.usage .noInput)
  return settings

end Progress

/-- The settings of a command line. -/
def readArguments (arguments : List String) : Except Stop Settings := do
  let ws ← (words arguments).mapError .usage
  (← ws.foldlM Progress.step .initial).finish

end CInterface.CommandLine
