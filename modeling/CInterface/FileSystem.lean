import CInterface.FilePath
import CInterface.Text.Utf8

/-!
# File systems

A tree of directories and regular files, the working directory and the mask for new files. Every entry is found
under its names from the root on; the root is always a directory. Calls answer with a value or with an error of
the system, and those that change something give the file system after it.
-/

namespace CInterface

/-- Why a call of the system fails: the system refuses it with a number and a reason, or it cannot be made at all
because a path holds a null character. -/
inductive SystemError where
  | refused (number : Nat) (reason : String)
  | nullCharacter
  deriving DecidableEq, Repr

namespace SystemError

def noEntry : SystemError := .refused 2 "No such file or directory"

def busy : SystemError := .refused 16 "Device or resource busy"

def occupied : SystemError := .refused 17 "File exists"

def notDirectory : SystemError := .refused 20 "Not a directory"

def isDirectory : SystemError := .refused 21 "Is a directory"

def nameTooLong : SystemError := .refused 36 "File name too long"

def text : SystemError → String
  | .refused number reason => "[Errno " ++ toString number ++ "] " ++ reason
  | .nullCharacter => "embedded null byte"

/-- The message that an access has failed. A call that was not made has no more to say than why. -/
def report (access : String) (e : SystemError) (subject : String) : String :=
  match e with
  | .refused _ _ => access ++ ": " ++ e.text ++ subject
  | .nullCharacter => e.text

end SystemError

abbrev Trail := List String

inductive Node where
  | directory
  | file (mode : Nat) (octets : List UInt8)
  deriving DecidableEq, Repr

structure FileSystem where
  nodes : List (Trail × Node)
  workingDirectory : Trail
  umask : Nat
  deriving DecidableEq, Repr

/-- What a path leads to: a directory as such, or an entry of a directory, which may be missing. -/
inductive Spot where
  | directory (trail : Trail)
  | entry (directory : Trail) (name : String)
  deriving DecidableEq, Repr

namespace FileSystem

def find? (fs : FileSystem) : Trail → Option Node
  | [] => some .directory
  | trail => fs.nodes.lookup trail

def putNode (trail : Trail) (node : Node) : List (Trail × Node) → List (Trail × Node)
  | [] => [(trail, node)]
  | (t, n) :: rest => if t = trail then (trail, node) :: rest else (t, n) :: putNode trail node rest

def put (fs : FileSystem) (trail : Trail) (node : Node) : FileSystem :=
  { fs with nodes := putNode trail node fs.nodes }

def remove (fs : FileSystem) (trail : Trail) : FileSystem :=
  { fs with nodes := fs.nodes.filter (·.1 ≠ trail) }

def longestName : Nat := 255

def longestPath : Nat := 4095

/-- The directory that names lead to from another one. Double dots lead up, and from the root nowhere else. -/
def enter (fs : FileSystem) (start : Trail) : List String → Except SystemError Trail
  | [] => .ok start
  | name :: names =>
    if name = ".." then fs.enter start.dropLast names
    else if longestName < name.utf8ByteSize then .error .nameTooLong
    else
      match fs.find? (start ++ [name]) with
      | some .directory => fs.enter (start ++ [name]) names
      | some (.file _ _) => .error .notDirectory
      | none => .error .noEntry

def start (fs : FileSystem) (p : FilePath) : Trail :=
  if p.anchor = .relative then fs.workingDirectory else []

/-- What a path leads to, as far as the directories on the way are there. -/
def locate (fs : FileSystem) (p : FilePath) : Except SystemError Spot :=
  if p.hasNull then .error .nullCharacter
  else if longestPath < p.text.utf8ByteSize then .error .nameTooLong
  else
    match p.parts.getLast? with
    | none => .ok (.directory (fs.start p))
    | some ".." => .directory <$> fs.enter (fs.start p) p.parts
    | some name => do
      let directory ← fs.enter (fs.start p) p.parent.parts
      if longestName < name.utf8ByteSize then throw .nameTooLong
      return .entry directory name

def open? (fs : FileSystem) (p : FilePath) : Except SystemError Node := do
  match ← fs.locate p with
  | .directory _ => return .directory
  | .entry directory name =>
    match fs.find? (directory ++ [name]) with
    | some node => return node
    | none => throw .noEntry

/-- The octets of the file that a path leads to. -/
def read (fs : FileSystem) (p : FilePath) : Except SystemError (List UInt8) := do
  match ← fs.open? p with
  | .directory => throw .isDirectory
  | .file _ octets => return octets

def directoryMode : Nat := 0o755

/-- The mode of a new file under a mask: for everyone whom the mask does not shut out. -/
def modeUnder (mask : Nat) : Nat := 0o666 &&& (0o777 ^^^ (mask &&& 0o777))

def newMode (fs : FileSystem) : Nat := modeUnder fs.umask

/-- The mode of what a path leads to. -/
def modeAt (fs : FileSystem) (p : FilePath) : Except SystemError Nat :=
  (fs.open? p).map fun
    | .directory => directoryMode
    | .file mode _ => mode

/-- Sets the mask for new files. The answer is the old mask, which is to be had in no other way. -/
def exchangeMask (fs : FileSystem) (mask : Nat) : Nat × FileSystem := (fs.umask, { fs with umask := mask })

/-- The trail of a path as it is spelled, whatever is there. -/
def spelledTrail (fs : FileSystem) (p : FilePath) : Trail :=
  p.parts.foldl (fun trail name => if name = ".." then trail.dropLast else trail ++ [name]) (fs.start p)

/-- Makes a directory, and those on the way to it, where nothing is there. -/
def makeDirectories (fs : FileSystem) (trail : Trail) : FileSystem :=
  ((List.range trail.length).map fun n => trail.take (n + 1)).foldl
    (fun fs t => if (fs.find? t).isNone then fs.put t .directory else fs) fs

/-- Stores a file in a directory that is made if need be. Without a mode a file that is there keeps its own. -/
def store (fs : FileSystem) (trail : Trail) (mode : Option Nat) (octets : List UInt8) : FileSystem :=
  let fs := fs.makeDirectories trail.dropLast
  let kept := match fs.find? trail with
    | some (.file mode _) => mode
    | _ => fs.newMode
  fs.put trail (.file (mode.getD kept) octets)

def below (fs : FileSystem) (directory : Trail) : List (Trail × Node) :=
  fs.nodes.filterMap fun (trail, node) =>
    match directory.isPrefixOf? trail with
    | some [] | none => none
    | some rest => some (rest, node)

/-- A name for a temporary file that is free in a directory; the first number that gives one counts. -/
def freshName? (fs : FileSystem) (directory : Trail) (name : String) : Option String :=
  ((List.range (fs.nodes.length + 1)).map (FilePath.temporaryName name)).find?
    fun candidate => (fs.find? (directory ++ [candidate])).isNone

/-- Makes an empty file of one's own in the directory that a path is spelled to lie in. What double dots take back
from the path has no part in this, not even a null character. -/
def createTemporary (fs : FileSystem) (p : FilePath) : Except SystemError (Trail × FileSystem) := do
  let directory := fs.spelledTrail p.parent
  let first := FilePath.temporaryName p.name 0
  let spelled : FilePath := ⟨if p.anchor = .relative then .root else p.anchor, directory ++ [first]⟩
  if spelled.hasNull then throw .nullCharacter
  if longestPath < spelled.text.utf8ByteSize then throw .nameTooLong
  discard (fs.enter [] directory)
  if longestName < first.utf8ByteSize then throw .nameTooLong
  match fs.freshName? directory p.name with
  | some name => return (directory ++ [name], fs.put (directory ++ [name]) (.file 0o600 []))
  | none => throw .occupied

/-- Changes a file; what is no file stays. -/
def modify (fs : FileSystem) (trail : Trail) (f : Nat → List UInt8 → Node) : FileSystem :=
  match fs.find? trail with
  | some (.file mode octets) => fs.put trail (f mode octets)
  | _ => fs

def setOctets (fs : FileSystem) (trail : Trail) (octets : List UInt8) : FileSystem :=
  fs.modify trail fun mode _ => .file mode octets

def setMode (fs : FileSystem) (trail : Trail) (mode : Nat) : FileSystem :=
  fs.modify trail fun _ octets => .file mode octets

/-- Moves a file to where a path leads, in the place of the file that is there. -/
def replace (fs : FileSystem) (source : Trail) (p : FilePath) : Except SystemError FileSystem := do
  match ← fs.locate p with
  | .directory _ => throw .busy
  | .entry directory name =>
    match fs.find? source, fs.find? (directory ++ [name]) with
    | none, _ => throw .noEntry
    | some _, some .directory => throw .isDirectory
    | some node, _ => return (fs.remove source).put (directory ++ [name]) node

end FileSystem

end CInterface
