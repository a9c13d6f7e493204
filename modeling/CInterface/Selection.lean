import CInterface.Event

/-!
# Selecting declarations for export

Each declaration gets a verdict in the light of the declarations accepted before it. Declarations that are not
marked for export are internal; generic aliases are not supported; and of two declarations that would take the
same name in the header the first one wins. Aliases that are supported can be followed whether they are
exported or not, and of several with one name the first is meant.
-/

namespace CInterface

open Source

/-- An alias that can be followed: without type parameters, and its target is no type application. -/
def Source.Alias.isSupported (a : Alias) : Bool :=
  a.typeParams.isEmpty && !a.target.isParameterized

def Source.Declaration.alias? : Declaration → Option Alias
  | .alias a => some a
  | _ => none

def Source.Declaration.unsupported? : Declaration → Option Alias
  | .alias a => if a.isSupported then none else some a
  | _ => none

inductive Verdict where
  | internal
  | accepted
  | refused (cause : Diagnostic.Cause)
  deriving DecidableEq, Repr

/-- The verdict on a declaration after `taken` have been accepted. -/
def verdict (taken : List Declaration) (d : Declaration) : Verdict :=
  if !d.isEligible then .internal
  else
    match d.unsupported? with
    | some a => .refused (.unsupportedAlias a)
    | none =>
      match taken.find? (·.headerName == d.headerName) with
      | some holder => .refused (.duplicateName holder.kind holder.name)
      | none => .accepted

/-- Each declaration with its verdict, after `taken` have been accepted. -/
def judge (taken : List Declaration) : List Declaration → List (Declaration × Verdict)
  | [] => []
  | d :: ds =>
    match verdict taken d with
    | .accepted => (d, .accepted) :: judge (taken ++ [d]) ds
    | v => (d, v) :: judge taken ds

/-- The first of each name. -/
def firstByName (seen : List String) : List Alias → List Alias
  | [] => []
  | a :: rest => if a.name ∈ seen then firstByName seen rest else a :: firstByName (a.name :: seen) rest

structure Selection where
  /-- The declarations to export, in the order of the input. -/
  accepted : List Declaration
  /-- The aliases that can be followed, no two of one name. -/
  aliases : List Alias
  diagnostics : List Diagnostic
  events : List Event
  deriving DecidableEq, Repr

namespace Selection

def accepted? : Declaration × Verdict → Option Declaration
  | (d, .accepted) => some d
  | _ => none

def diagnostic? : Declaration × Verdict → Option Diagnostic
  | (d, .refused cause) => some (.of d cause)
  | _ => none

/-- Refusals are reported, and so is everything internal but an alias. -/
def event? : Declaration × Verdict → Option Event
  | (d, .refused cause) => some (.skipping .selection (.of d cause))
  | (d, .internal) => if d.alias?.isSome then none else some (.notMarked d.kind d.name)
  | (_, .accepted) => none

/-- The selection from a list of declarations. -/
def of (ds : List Declaration) : Selection :=
  let judged := judge [] ds
  ⟨judged.filterMap accepted?, firstByName [] ((ds.filterMap (·.alias?)).filter (·.isSupported)),
    judged.filterMap diagnostic?, judged.filterMap event?⟩

def ofKind (s : Selection) (kind : Kind) : List Declaration := s.accepted.filter (·.kind == kind)

/-- The accepted declarations in the order of the sections of a header. -/
def inSections (s : Selection) : List Declaration :=
  s.ofKind .typedef ++ s.ofKind .enumeration ++ s.ofKind .struct ++ s.ofKind .function

def exportedNames (s : Selection) : List String :=
  (s.accepted.filter (·.kind != .function)).map (·.name)

end Selection

end CInterface
