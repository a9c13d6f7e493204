/-!
# File paths

A path is a root, which may be absent, and named components. Empty components and single dots say nothing and are
dropped; double dots stay.
-/

namespace CInterface

/-- Where a path starts: in the working directory, or at a root written with one slash or with two. -/
inductive Anchor where
  | relative
  | root
  | doubleRoot
  deriving DecidableEq, Repr

def Anchor.text : Anchor → String
  | .relative => ""
  | .root => "/"
  | .doubleRoot => "//"

structure FilePath where
  anchor : Anchor
  parts : List String
  deriving DecidableEq, Repr

namespace FilePath

/-- The pieces between slashes, empty ones included. -/
def pieces : List Char → List (List Char)
  | [] => [[]]
  | c :: cs =>
    if c = '/' then [] :: pieces cs
    else
      match pieces cs with
      | [] => [[c]]
      | p :: ps => (c :: p) :: ps

/-- Exactly two slashes in front are kept apart from one and from more. -/
def anchorOf : List Char → Anchor
  | '/' :: '/' :: '/' :: _ => .root
  | '/' :: '/' :: _ => .doubleRoot
  | '/' :: _ => .root
  | _ => .relative

def ofString (s : String) : FilePath :=
  ⟨anchorOf s.toList, ((pieces s.toList).filter fun p => p ≠ [] ∧ p ≠ ['.']).map String.ofList⟩

def text (p : FilePath) : String :=
  match p.anchor, p.parts with
  | .relative, [] => "."
  | anchor, parts => anchor.text ++ "/".intercalate parts

/-- The last component, empty if there is none. -/
def name (p : FilePath) : String := p.parts.getLast?.getD ""

/-- Whether a path holds a null character, which no call of the system can be made with. -/
def hasNull (p : FilePath) : Bool := p.text.toList.contains '\x00'

def parent (p : FilePath) : FilePath := ⟨p.anchor, p.parts.dropLast⟩

/-- A name for a temporary file next to a file of the given name: hidden, with eight digits of a number. -/
def temporaryName (name : String) (number : Nat) : String :=
  let digits := (List.range 8).reverse.map fun place => Nat.digitChar (number / Nat.pow 10 place % 10)
  "." ++ name ++ "." ++ String.ofList digits ++ ".tmp"

/-- A file name up to its last dot, if there is something on both sides of that dot. -/
def stemOf (name : List Char) : List Char :=
  match name.reverse.dropWhile (· ≠ '.') with
  | [] => name
  | _ :: before =>
    if before.isEmpty || name.getLast? == some '.' then name else before.reverse

def stem (p : FilePath) : String := String.ofList (stemOf p.name.toList)

end FilePath

end CInterface
