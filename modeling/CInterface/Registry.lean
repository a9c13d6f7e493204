import CInterface.Text.Blank
import CInterface.Text.Quoted

/-!
# Registries

Named items in the order of their registration. A name is registered once. The default is the first item, unless
a later one asks to be it. Every registration that is refused leaves the registry as it was.

What fills a registry is loaded when the registry is first asked for something. Here that is taken as done: a registry
is what it holds, and nothing is loaded behind a lookup.
-/

namespace CInterface

/-- What a registry holds, for its messages. -/
inductive Subject where
  | writer
  | frontEnd
  deriving DecidableEq, Repr

def Subject.title : Subject → String
  | .writer => "Writer"
  | .frontEnd => "Front end"

def Subject.noun : Subject → String
  | .writer => "writer"
  | .frontEnd => "front end"

/-- The first of the names of options that a lookup cannot pass on: what a writer is looked up by is no option of
it, and a front end has no options. -/
def Subject.refusedOption? (subject : Subject) (names : List String) : Option String :=
  match subject with
  | .writer => names.find? (· = "name")
  | .frontEnd => names.head?

structure Entry (α : Type) where
  name : String
  item : α
  documentation : Option String
  description : Option String
  deriving DecidableEq, Repr

structure Registry (α : Type) where
  entries : List (Entry α)
  default : Option String
  deriving DecidableEq, Repr

inductive RegistryError where
  | registered (name : String)
  | unknown (name : String) (available : List String)
  | empty
  deriving DecidableEq, Repr

/-- A list of names for a message. It says so if there is no name to be read in it. -/
def RegistryError.listing (names : List String) : String :=
  let text := ", ".intercalate names
  if text.isEmpty then "(none)" else text

def RegistryError.message (subject : Subject) : RegistryError → String
  | .registered name => subject.title ++ " already registered: " ++ Text.quoted name
  | .unknown name available =>
    "Unknown " ++ subject.noun ++ ": " ++ Text.quoted name ++ ". Available: " ++ listing available
  | .empty => "No " ++ subject.noun ++ "s available"

namespace Registry

variable {α : Type}

def empty : Registry α := ⟨[], none⟩

def names (r : Registry α) : List String := r.entries.map (·.name)

/-- Adds an entry at the end. -/
def register (r : Registry α) (e : Entry α) (asDefault : Bool) : Except RegistryError (Registry α) :=
  if e.name ∈ r.names then .error (.registered e.name)
  else .ok ⟨r.entries ++ [e], if asDefault ∨ r.default = none then some e.name else r.default⟩

def default? (r : Registry α) : Except RegistryError String :=
  match r.default with
  | some name => .ok name
  | none => .error .empty

def lookup (r : Registry α) (name : String) : Except RegistryError (Entry α) :=
  match r.entries.find? (·.name == name) with
  | some e => .ok e
  | none => .error (.unknown name r.names)

/-- The entry of a name, or the default without one. -/
def get (r : Registry α) : Option String → Except RegistryError (Entry α)
  | some name => r.lookup name
  | none => r.default? >>= r.lookup

/-- A registry of the given entries, the first of which is the default. -/
def ofEntries (entries : List (Entry α)) : Registry α := ⟨entries, entries.head?.map (·.name)⟩

end Registry

/-- The description of an item: the one given, or else the first line of its documentation. -/
def Entry.summary {α : Type} (e : Entry α) : String :=
  match e.description with
  | some description => if description.isEmpty then fallback else description
  | none => fallback
where
  fallback : String :=
    match e.documentation with
    | some documentation => Text.firstLine (Text.trim documentation)
    | none => ""

structure Info where
  name : String
  description : String
  isDefault : Bool
  deriving DecidableEq, Repr

def Registry.info {α : Type} (r : Registry α) : List Info :=
  r.entries.map fun e => ⟨e.name, e.summary, r.default = some e.name⟩

end CInterface
