import CInterface.Guard
import CInterface.Header.Document
import CInterface.Header.Text
import CInterface.Json.Printer
import CInterface.Registry

/-!
# Writers

A writer turns a header into text. There is one for C and one for JSON; each is set up by options of its own. A
guard or a guard prefix that is given must be an identifier. Whether an indent can be written with is only seen when
something is written, and depends on the machine.
-/

namespace CInterface

open Json (Members Style)

inductive Format where
  | c
  | json
  deriving DecidableEq, Repr

def Format.name : Format → String
  | .c => "c"
  | .json => "json"

def Format.description : Format → String
  | .c => "C header with include guard and extern \"C\" block"
  | .json => "JSON serialization of the resolved header"

/-- The names of the options of a format. -/
def Format.options : Format → List String
  | .c => ["guard", "guard_prefix"]
  | .json => ["indent"]

/-- What is wrong with an option, or with a header that no option helps. -/
inductive OptionError where
  | unknown (name : String)
  | unusable (name : String)
  /-- For a number beyond the integers of 64 bits. -/
  | outOfRange (name : String)
  /-- For a number of characters that the memory has no room for. -/
  | noRoom (name : String)
  | guard (value : String)
  | guardPrefix (value : String)
  /-- For a header with a number of too many digits. -/
  | oversized
  deriving DecidableEq, Repr

/-- An indent as it is given: none at all, a number of blanks, a text of its own, or what cannot be one. -/
inductive Indent where
  | absent
  | blanks (n : Int)
  | unit (text : String)
  | unusable
  deriving DecidableEq, Repr

inductive Writer where
  | c (guard guardPrefix : Option String)
  | json (indent : Indent)
  deriving DecidableEq, Repr

/-- The integers of 64 bits go from the negative of this one to just below it. -/
def Indent.bound : Int := 9223372036854775808

/-- The memory of a machine, as far as a writer depends on it. How many blanks it has room for differs, but they are
counted by integers of 64 bits. -/
class Memory where
  blanks : Nat
  two_le_blanks : 2 ≤ blanks
  blanks_lt : blanks < Indent.bound

/-- A machine to run on. What is proved of writers holds on any other one as well. -/
instance ordinaryMemory : Memory := ⟨4294967296, by decide, by decide⟩

/-- The message of an error, for those that have one of their own. -/
def OptionError.message? : OptionError → Option String
  | .unknown _ => none
  | .unusable _ => none
  | .outOfRange _ => none
  | .noRoom _ => none
  | .guard value => some ("Include guard is not a valid C identifier: " ++ Text.quoted value)
  | .guardPrefix value => some ("Guard prefix is not a valid C identifier: " ++ Text.quoted value)
  | .oversized => some (Decimal.limitMessage "")

inductive WriterError where
  | registry (e : RegistryError)
  | option (e : OptionError)
  deriving DecidableEq, Repr

def WriterError.message? : WriterError → Option String
  | .registry e => some (e.message .writer)
  | .option e => e.message?

namespace Indent

/-- The option for the indent, two blanks if it is not given. -/
def ofOptions (options : Members) : Indent :=
  match options.find? "indent" with
  | none => .blanks 2
  | some .null => .absent
  | some (.int n) => .blanks n
  | some (.bool b) => .blanks (if b then 1 else 0)
  | some (.string text) => .unit text
  | some _ => .unusable

/-- The style that an indent stands for. A negative number of blanks is as good as none. -/
def style [Memory] : Indent → Except OptionError Style
  | .absent => .ok .compact
  | .blanks n =>
    if n < -bound ∨ bound ≤ n then .error (.outOfRange "indent")
    else if Memory.blanks < n then .error (.noRoom "indent")
    else .ok (.indented (String.ofList (List.replicate n.toNat ' ')))
  | .unit text => .ok (.indented text)
  | .unusable => .error (.unusable "indent")

end Indent

namespace Writer

def ofGuard (guard guardPrefix : Option String) : Except OptionError Writer := do
  if let some value := guard then
    unless Text.isIdentifierLine value do throw (.guard value)
  if let some value := guardPrefix then
    unless Text.isIdentifierLine value do throw (.guardPrefix value)
  return .c guard guardPrefix

/-- An option that is a text, or null as if it were not given. -/
def textOption (options : Members) (name : String) : Except OptionError (Option String) :=
  match options.find? name with
  | none => .ok none
  | some .null => .ok none
  | some (.string s) => .ok (some s)
  | some _ => .error (.unusable name)

/-- The writer of a format with options. Unknown options are refused before any value is looked at. -/
def configure (format : Format) (options : Members) : Except OptionError Writer :=
  match (options.map (·.1)).find? (· ∉ format.options) with
  | some name => .error (.unknown name)
  | none =>
    match format with
    | .c => do
      let guard ← textOption options "guard"
      discard (ofGuard guard none)
      ofGuard guard (← textOption options "guard_prefix")
    | .json => .ok (.json (.ofOptions options))

def registry : Registry Format :=
  .ofEntries ([.c, .json].map fun format => ⟨format.name, format, none, some format.description⟩)

/-- The writer of a name, or the default one, with options. -/
def select (name : Option String) (options : Members) : Except WriterError Writer := do
  if let some refused := Subject.writer.refusedOption? (options.map (·.1)) then throw (.option (.unknown refused))
  let entry ← (registry.get name).mapError .registry
  (configure entry.item options).mapError .option

def format : Writer → Format
  | .c _ _ => .c
  | .json _ => .json

def printed : Option String → Except OptionError String
  | some text => .ok text
  | none => .error .oversized

/-- The text of a header. The environment may give the prefix of a guard. An indent that nothing can
be written with is only refused here. -/
def write [Memory] (writer : Writer) (environment : Option String) (h : Header) : Except OptionError String :=
  match writer with
  | .c guard guardPrefix => printed (h.text? (guard.getD (Guard.token h.target guardPrefix environment)))
  | .json indent => do
    let style ← indent.style
    return (← printed (h.document.text? style)) ++ "\n"

def events (writer : Writer) (environment : Option String) : List Event :=
  match writer with
  | .c none guardPrefix => Guard.events guardPrefix environment
  | _ => []

end Writer

end CInterface
