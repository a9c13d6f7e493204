import CInterface.Text.DecimalDigit
import CInterface.Text.Quoted

/-!
# Words of a command line

Each argument is taken for an operand, for the separator after which all are operands, or for an option. An option
may be abbreviated as long as one option alone is meant, and may carry a value: after an equals sign, or right
behind its letter. A negative number and a text with a space in it are operands, unless they are options.
-/

namespace CInterface.CommandLine

inductive Switch where
  | help
  | output
  | frontEnd
  | writer
  | guard
  | guardPrefix
  | listWriters
  | verbose
  | quiet
  deriving DecidableEq, Repr

namespace Switch

def all : List Switch :=
  [.help, .output, .frontEnd, .writer, .guard, .guardPrefix, .listWriters, .verbose, .quiet]

/-- The spellings of an option, its letter first if it has one. -/
def spellings : Switch → List String
  | .help => ["-h", "--help"]
  | .output => ["-o", "--output"]
  | .frontEnd => ["-f", "--frontend"]
  | .writer => ["-w", "--writer"]
  | .guard => ["--guard"]
  | .guardPrefix => ["--guard-prefix"]
  | .listWriters => ["--list-writers"]
  | .verbose => ["-v", "--verbose"]
  | .quiet => ["-q", "--quiet"]

def label (s : Switch) : String := "/".intercalate s.spellings

def takesValue : Switch → Bool
  | .output | .frontEnd | .writer | .guard | .guardPrefix => true
  | .help | .listWriters | .verbose | .quiet => false

def table : List (String × Switch) := all.flatMap fun s => s.spellings.map (·, s)

def ofSpelling? (spelling : String) : Option Switch := table.lookup spelling

def ofLetter? (c : Char) : Option Switch := ofSpelling? (String.ofList ['-', c])

end Switch

inductive UsageError where
  | ambiguous (argument : String) (candidates : List String)
  | missingValue (s : Switch)
  | needlessValue (s : Switch) (value : String)
  | invalidChoice (s : Switch) (value : String) (choices : List String)
  | conflict (s other : Switch)
  | unrecognized (arguments : List String)
  | noInput
  deriving DecidableEq, Repr

def UsageError.message : UsageError → String
  | .ambiguous argument candidates =>
    "ambiguous option: " ++ argument ++ " could match " ++ ", ".intercalate candidates
  | .missingValue s => "argument " ++ s.label ++ ": expected one argument"
  | .needlessValue s value => "argument " ++ s.label ++ ": ignored explicit argument " ++ Text.quoted value
  | .invalidChoice s value choices =>
    "argument " ++ s.label ++ ": invalid choice: " ++ Text.quoted value ++ " (choose from "
      ++ ", ".intercalate (choices.map Text.quoted) ++ ")"
  | .conflict s other => "argument " ++ s.label ++ ": not allowed with argument " ++ other.label
  | .unrecognized arguments => "unrecognized arguments: " ++ " ".intercalate arguments
  | .noInput => "at least one INPUT is required"

inductive Word where
  | operand (text : String)
  | separator
  /-- An option by its letter, with the letters behind it. -/
  | letters (s : Switch) (rest : List Char)
  /-- An option with the value set off by an equals sign, if there is one. -/
  | option (s : Switch) (value : Option String)
  | unknown (text : String)
  deriving DecidableEq, Repr

/-- A text up to its first equals sign, and what follows that sign. -/
def splitEquals (s : List Char) : List Char × Option String :=
  match s.dropWhile (· ≠ '=') with
  | [] => (s, none)
  | _ :: value => (s.takeWhile (· ≠ '='), some (String.ofList value))

/-- Whether an argument reads as a negative number; a line feed may follow it. -/
def isNegativeNumber : List Char → Bool
  | '-' :: s =>
    let s := if s.getLast? == some '\n' then s.dropLast else s
    match s.dropWhile Text.isDecimalDigit with
    | [] => !s.isEmpty
    | '.' :: fraction => !fraction.isEmpty && fraction.all Text.isDecimalDigit
    | _ => false
  | _ => false

/-- What an argument with a dash is that stands for no option. -/
def Word.ofStray (argument : String) : Word :=
  if isNegativeNumber argument.toList || argument.toList.contains ' ' then .operand argument
  else .unknown argument

def completions (name : List Char) : List (String × Switch) :=
  Switch.table.filter fun entry => name.isPrefixOf entry.1.toList

/-- What an argument with two dashes is. A name that is spelled out abbreviates nothing else. -/
def Word.ofLong (argument : String) : Except UsageError Word :=
  let (name, value) := splitEquals argument.toList
  match Switch.ofSpelling? (String.ofList name), completions name with
  | some s, _ => .ok (.option s value)
  | none, [] => .ok (.ofStray argument)
  | none, [(_, s)] => .ok (.option s value)
  | none, candidates => .error (.ambiguous argument (candidates.map (·.1)))

/-- What an argument that starts with the letter of an option is. An equals sign right behind the letter says
nothing, but that a value follows. -/
def Word.ofLetter (s : Switch) : List Char → Word
  | ['='] => .option s (some "")
  | '=' :: rest => .letters s rest
  | rest => .letters s rest

def Word.ofArgument (argument : String) : Except UsageError Word :=
  match argument.toList with
  | '-' :: '-' :: _ => Word.ofLong argument
  | '-' :: c :: rest =>
    match Switch.ofLetter? c with
    | some s => .ok (.ofLetter s rest)
    | none => .ok (.ofStray argument)
  | _ => .ok (.operand argument)

def words : List String → Except UsageError (List Word)
  | [] => .ok []
  | argument :: rest =>
    if argument = "--" then .ok (.separator :: rest.map .operand)
    else do
      let w ← Word.ofArgument argument
      return w :: (← words rest)

end CInterface.CommandLine
