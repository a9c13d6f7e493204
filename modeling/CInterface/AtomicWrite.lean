import CInterface.FileSystem

/-!
# Replacing files atomically

A text is written to a temporary file next to its destination, which then takes the place of the destination.
The result has the mode of the file that it replaces, or that of a new file. Each step makes one call of the
system, which may fail; after the first failure the temporary file is removed, and the write has failed.
-/

namespace CInterface.AtomicWrite

/-- What is to be written, and where. -/
structure Job where
  destination : FilePath
  octets : List UInt8
  deriving DecidableEq, Repr

def Job.ofText (destination : FilePath) (text : String) : Job := ⟨destination, Text.encode text⟩

/-- How far a write has come. -/
inductive Phase where
  | start
  | created (temporary : Trail)
  | filled (temporary : Trail)
  /-- Nothing is at the destination, so that the mode follows from the mask. -/
  | unmeasured (temporary : Trail)
  /-- The mask has been read, and no mask is in force until it is set again. -/
  | unmasked (temporary : Trail) (mask : Nat)
  | measured (temporary : Trail) (mode : Nat)
  | prepared (temporary : Trail)
  | failing (temporary : Trail) (e : SystemError)
  | ended (result : Except SystemError Unit)

/-- The most steps that are left. -/
def Phase.remaining : Phase → Nat
  | .start => 8
  | .created _ => 7
  | .filled _ => 6
  | .unmeasured _ => 5
  | .unmasked _ _ => 4
  | .measured _ _ => 3
  | .prepared _ => 2
  | .failing _ _ => 1
  | .ended _ => 0

/-- A call of the system, which a fault makes fail. -/
def attempt {α : Type} (fault : Option SystemError) (call : Except SystemError α) : Except SystemError α :=
  match fault with
  | some e => .error e
  | none => call

/-- The next step. A fault makes its call fail, but for the calls that cannot fail: those that set the mask, and the
one that removes one's own temporary file. -/
def step (job : Job) (fault : Option SystemError) (phase : Phase) (fs : FileSystem) : Phase × FileSystem :=
  match phase with
  | .start =>
    match attempt fault (fs.createTemporary job.destination) with
    | .ok (temporary, fs') => (.created temporary, fs')
    | .error e => (.ended (.error e), fs)
  | .created temporary =>
    match attempt fault (.ok (fs.setOctets temporary job.octets)) with
    | .ok fs' => (.filled temporary, fs')
    | .error e => (.failing temporary e, fs)
  | .filled temporary =>
    match attempt fault (fs.modeAt job.destination) with
    | .ok mode => (.measured temporary mode, fs)
    | .error e => if e = .noEntry then (.unmeasured temporary, fs) else (.failing temporary e, fs)
  | .unmeasured temporary => (.unmasked temporary (fs.exchangeMask 0).1, (fs.exchangeMask 0).2)
  | .unmasked temporary mask => (.measured temporary (FileSystem.modeUnder mask), (fs.exchangeMask mask).2)
  | .measured temporary mode =>
    match attempt fault (.ok (fs.setMode temporary mode)) with
    | .ok fs' => (.prepared temporary, fs')
    | .error e => (.failing temporary e, fs)
  | .prepared temporary =>
    match attempt fault (fs.replace temporary job.destination) with
    | .ok fs' => (.ended (.ok ()), fs')
    | .error e => (.failing temporary e, fs)
  | .failing temporary e => (.ended (.error e), fs.remove temporary)
  | .ended result => (.ended result, fs)

theorem remaining_step (job : Job) (fault : Option SystemError) (phase : Phase) (fs : FileSystem) :
    (step job fault phase fs).1.remaining ≤ phase.remaining - 1 := by
  cases phase <;> simp only [step] <;> (try split) <;> (try split) <;> simp [Phase.remaining]

def Phase.result? : Phase → Option (Except SystemError Unit)
  | .ended result => some result
  | _ => none

theorem Phase.remaining_pos {phase : Phase} (h : phase.result? = none) : 0 < phase.remaining := by
  cases phase <;> simp_all [Phase.result?, Phase.remaining]

/-- Takes all steps that are left. `faults` says which calls fail, by the phase they are made in. -/
def finish (job : Job) (faults : Phase → Option SystemError) (phase : Phase) (fs : FileSystem) :
    Except SystemError Unit × FileSystem :=
  match _h : phase.result? with
  | some result => (result, fs)
  | none => finish job faults (step job (faults phase) phase fs).1 (step job (faults phase) phase fs).2
termination_by phase.remaining
decreasing_by
  have less := remaining_step job (faults phase) phase fs
  have pos := Phase.remaining_pos _h
  omega

/-- Writes while no call fails but for the state of the file system. -/
def write (job : Job) (fs : FileSystem) : Except SystemError Unit × FileSystem :=
  finish job (fun _ => none) .start fs

def message (destination : FilePath) (e : SystemError) : String :=
  e.report ("cannot write " ++ destination.text) ""

end CInterface.AtomicWrite
