import CInterface.Proofs.AtomicWrite.Progress
import Mathlib.Logic.Function.Basic

/-!
# Processes that write

Processes that write at the same time share the entries of the file system; each has a working directory and a mask
of its own. They move one after the other in any order, and any of their calls may fail. What a phase says of the
shared entries is about the temporary file of its process alone, and a move of the process keeps it, as long as the
others leave the directories as they are and give the destination no other mode.
-/

namespace CInterface.AtomicWrite

/-- A write that a process is asked for. -/
structure Call where
  destination : FilePath
  text : String
  workingDirectory : Trail

def Call.job (call : Call) : Job := .ofText call.destination call.text

/-- The file system as a process sees it, which has its own working directory and mask. -/
def Call.view (call : Call) (fs : FileSystem) (umask : Nat) : FileSystem :=
  { fs with workingDirectory := call.workingDirectory, umask := umask }

@[simp] theorem Call.find?_view (call : Call) (fs : FileSystem) (umask : Nat) (trail : Trail) :
    (call.view fs umask).find? trail = fs.find? trail := by
  cases trail <;> rfl

/-- Processes at work, each in a phase of its write and with a mask. -/
structure Crowd (ι : Type) where
  shared : FileSystem
  phase : ι → Phase
  umask : ι → Nat

/-- The temporary file that a write has to itself. -/
def Phase.temporary? : Phase → Option Trail
  | .start | .ended _ => none
  | .created temporary | .filled temporary | .unmeasured temporary | .unmasked temporary _ | .measured temporary _
  | .prepared temporary | .failing temporary _ => some temporary

/-- Whether a write has replaced its destination. -/
def Phase.succeeded : Phase → Bool
  | .ended (.ok _) => true
  | _ => false

namespace Crowd

variable {ι : Type}

/-- No process has begun, and all have the same mask. -/
def start (ι : Type) (fs : FileSystem) : Crowd ι := ⟨fs, fun _ => .start, fun _ => fs.umask⟩

/-- A process has come to a phase, and has left the entries and its mask as it sees them. -/
def advance [DecidableEq ι] (c : Crowd ι) (i : ι) (next : Phase × FileSystem) : Crowd ι :=
  ⟨{ c.shared with nodes := next.2.nodes }, Function.update c.phase i next.1, Function.update c.umask i next.2.umask⟩

section

variable [DecidableEq ι] (c : Crowd ι) {i j : ι} (next : Phase × FileSystem)

@[simp] theorem phase_advance_self : (c.advance i next).phase i = next.1 := Function.update_self ..

@[simp] theorem umask_advance_self : (c.advance i next).umask i = next.2.umask := Function.update_self ..

theorem phase_advance_of_ne (other : j ≠ i) : (c.advance i next).phase j = c.phase j :=
  Function.update_of_ne other ..

theorem umask_advance_of_ne (other : j ≠ i) : (c.advance i next).umask j = c.umask j :=
  Function.update_of_ne other ..

end

end Crowd

variable {ι : Type} [DecidableEq ι]

/-- The moves of a process: the next step of its write, whose call may fail while the system stays honest. For a
temporary file any free name may be chosen. -/
inductive Moves (calls : ι → Call) (c : Crowd ι) (i : ι) : Crowd ι → Prop
  | step (fault : Option SystemError) (honest : Honest fault (c.phase i)) :
      Moves calls c i
        (c.advance i (step (calls i).job fault (c.phase i) ((calls i).view c.shared (c.umask i))))
  | create {chosen temporary : Trail} {fs' : FileSystem} (number : Nat) (fresh : c.phase i = .start)
      (possible : ((calls i).view c.shared (c.umask i)).createTemporary (calls i).destination = .ok (chosen, fs'))
      (named : temporary = chosen.dropLast ++ [FilePath.temporaryName (calls i).destination.name number])
      (free : c.shared.find? temporary = none) :
      Moves calls c i
        (c.advance i (.created temporary, ((calls i).view c.shared (c.umask i)).put temporary (.file 0o600 [])))

/-- What processes come to in any number of moves, in any order. Those that have replaced the destination are listed,
the last one first. -/
inductive Reaches (calls : ι → Call) (fs : FileSystem) : Crowd ι → List ι → Prop
  | start : Reaches calls fs (.start ι fs) []
  | move {c c' : Crowd ι} {i : ι} {replaced : List ι} (h : Reaches calls fs c replaced) (moves : Moves calls c i c') :
      Reaches calls fs c' (if (c'.phase i).succeeded && !(c.phase i).succeeded then i :: replaced else replaced)

/-- A call is to a place: its path has the name of that place and leads, if it leads to an entry at all, there. -/
structure Call.LeadsTo (call : Call) (fs : FileSystem) (directory : Trail) (name : String) : Prop where
  named : call.destination.name = name
  led : ∀ d n, (call.view fs fs.umask).locate call.destination = .ok (.entry d n) → d = directory

/-- A mode that suits the destination: that of the file there, or that of a new file. -/
def Suits (call : Call) (fs : FileSystem) (mode : Nat) : Prop :=
  ∀ directory name, (call.view fs fs.umask).locate call.destination = .ok (.entry directory name) →
    fs.find? (directory ++ [name]) ≠ some .directory → mode = fs.modeFor (directory ++ [name])

/-- What a phase of a write says of the shared entries and of the mask, if `fs` was the file system at the start. -/
inductive Stage (call : Call) (fs shared : FileSystem) : Phase → Nat → Prop
  | start : Stage call fs shared .start fs.umask
  | created {temporary : Trail} (own : Own call.job fs temporary)
      (here : shared.find? temporary = some (.file 0o600 [])) : Stage call fs shared (.created temporary) fs.umask
  | filled {temporary : Trail} (own : Own call.job fs temporary)
      (here : shared.find? temporary = some (.file 0o600 call.job.octets)) :
      Stage call fs shared (.filled temporary) fs.umask
  | unmeasured {temporary : Trail} (own : Own call.job fs temporary)
      (here : shared.find? temporary = some (.file 0o600 call.job.octets)) (suits : Suits call fs fs.newMode) :
      Stage call fs shared (.unmeasured temporary) fs.umask
  | unmasked {temporary : Trail} (own : Own call.job fs temporary)
      (here : shared.find? temporary = some (.file 0o600 call.job.octets)) (suits : Suits call fs fs.newMode) :
      Stage call fs shared (.unmasked temporary fs.umask) 0
  | measured {temporary : Trail} {mode : Nat} (own : Own call.job fs temporary)
      (here : shared.find? temporary = some (.file 0o600 call.job.octets)) (suits : Suits call fs mode) :
      Stage call fs shared (.measured temporary mode) fs.umask
  | prepared {temporary : Trail} {mode : Nat} (own : Own call.job fs temporary)
      (here : shared.find? temporary = some (.file mode call.job.octets)) (suits : Suits call fs mode) :
      Stage call fs shared (.prepared temporary) fs.umask
  | failing {temporary : Trail} {mode : Nat} {octets : List UInt8} {e : SystemError} (own : Own call.job fs temporary)
      (here : shared.find? temporary = some (.file mode octets)) : Stage call fs shared (.failing temporary e) fs.umask
  | ended {result : Except SystemError Unit} : Stage call fs shared (.ended result) fs.umask

/-- What one move makes of the shared entries: a temporary file of one's own is made, changed or removed, or takes the
place of the destination. -/
inductive Effect (place : Trail) (node : Node) (shared : FileSystem) :
    Option Trail → Option Trail → Bool → FileSystem → Prop
  | nothing (temporary? : Option Trail) : Effect place node shared temporary? temporary? false shared
  | make {temporary : Trail} (free : shared.find? temporary = none) (mode : Nat) (octets : List UInt8) :
      Effect place node shared none (some temporary) false (shared.put temporary (.file mode octets))
  | change {temporary : Trail} (mode : Nat) (octets : List UInt8) :
      Effect place node shared (some temporary) (some temporary) false (shared.put temporary (.file mode octets))
  | remove {temporary : Trail} : Effect place node shared (some temporary) none false (shared.remove temporary)
  | replace {temporary : Trail} (permitted : shared.find? place ≠ some .directory) :
      Effect place node shared (some temporary) none true ((shared.remove temporary).put place node)

/-- What a process relies on while others move. -/
structure Rely (call : Call) (fs shared : FileSystem) (directory : Trail) (name : String) : Prop where
  leads : call.LeadsTo fs directory name
  directories : ∀ trail, shared.find? trail = some .directory ↔ fs.find? trail = some .directory
  fresh : ∀ trail, shared.find? trail = none → fs.find? trail = none
  mode : ∀ node, shared.find? (directory ++ [name]) = some node → node.mode = fs.modeFor (directory ++ [name])

variable {call : Call} {fs shared : FileSystem} {directory : Trail} {name : String} {phase : Phase} {umask : Nat}

theorem Rely.locate (rely : Rely call fs shared directory name) (spot : Spot) :
    (call.view shared umask).locate call.destination = .ok spot ↔
      (call.view fs fs.umask).locate call.destination = .ok spot := by
  have same : ∀ trail, (call.view shared umask).find? trail = some .directory ↔
      (call.view fs fs.umask).find? trail = some .directory := by
    simpa only [Call.find?_view] using rely.directories
  exact FileSystem.locate_of_directories same rfl call.destination spot

theorem Rely.place (rely : Rely call fs shared directory name) {d : Trail} {n : String}
    (located : (call.view fs fs.umask).locate call.destination = .ok (.entry d n)) :
    d ++ [n] = directory ++ [name] := by
  rw [rely.leads.led d n located, FileSystem.name_of_locate located, rely.leads.named]

/-- The mode that is read is that of the file that was there at the start, or of one that was given the same mode. -/
theorem Rely.suits (rely : Rely call fs shared directory name) {mode : Nat}
    (answer : (call.view shared umask).modeAt call.destination = .ok mode) : Suits call fs mode := by
  intro d n located _
  rw [FileSystem.modeAt_eq ((rely.locate _).2 located), rely.place located, Call.find?_view] at answer
  cases there : shared.find? (directory ++ [name]) with
  | none =>
    rw [there] at answer
    cases answer
  | some node =>
    rw [there] at answer
    rw [rely.place located, ← rely.mode node there]
    exact (Except.ok.inj answer).symm

theorem Rely.suits_new (rely : Rely call fs shared directory name)
    (answer : (call.view shared umask).modeAt call.destination = .error .noEntry) : Suits call fs fs.newMode := by
  intro d n located _
  rw [FileSystem.modeAt_eq ((rely.locate _).2 located), rely.place located, Call.find?_view] at answer
  cases there : shared.find? (directory ++ [name]) with
  | none => rw [rely.place located, FileSystem.modeFor, rely.fresh _ there, Option.map_none, Option.getD_none]
  | some node =>
    rw [there] at answer
    cases answer

/-- A step keeps what the phases say, and has one of the effects on the shared entries. -/
theorem Stage.step (h : Stage call fs shared phase umask) (rely : Rely call fs shared directory name)
    (fault : Option SystemError) (honest : Honest fault phase) :
    let next := AtomicWrite.step call.job fault phase (call.view shared umask)
    Effect (directory ++ [name]) (.file (fs.modeFor (directory ++ [name])) call.job.octets) shared phase.temporary?
        next.1.temporary? (next.1.succeeded && !phase.succeeded) { shared with nodes := next.2.nodes } ∧
      Stage call fs { shared with nodes := next.2.nodes } next.1 next.2.umask := by
  have here {trail : Trail} {node : Node} (there : shared.find? trail = some node) :
      (call.view shared umask).find? trail = some node := by rwa [Call.find?_view]
  cases h with
  | start =>
    rw [AtomicWrite.step]
    split
    · next temporary made answer =>
      obtain ⟨named, free, rfl⟩ := FileSystem.createTemporary_ok (attempt_ok answer)
      rw [Call.find?_view] at free
      have inside := FileSystem.ne_nil_of_find?_eq_none free
      exact ⟨.make free _ _, .created ⟨rely.fresh _ free, named⟩ (FileSystem.find?_put_self inside _)⟩
    · exact ⟨.nothing none, .ended⟩
  | @created temporary own there =>
    rw [AtomicWrite.step]
    split
    · next answer =>
      obtain rfl := Except.ok.inj (attempt_ok answer)
      rw [FileSystem.setOctets, FileSystem.modify, here there]
      exact ⟨.change _ _, .filled own (FileSystem.find?_put_self own.inside _)⟩
    · exact ⟨.nothing (some temporary), .failing own there⟩
  | @filled temporary own there =>
    have told : fault ≠ some .noEntry := honest temporary rfl
    rw [AtomicWrite.step]
    split
    · next answer => exact ⟨.nothing (some temporary), .measured own there (rely.suits (attempt_ok answer))⟩
    · next answer =>
      split
      · next absent =>
        subst absent
        cases fault with
        | some e => exact absurd (congrArg some (Except.error.inj answer)) told
        | none => exact ⟨.nothing (some temporary), .unmeasured own there (rely.suits_new answer)⟩
      · exact ⟨.nothing (some temporary), .failing own there⟩
  | @unmeasured temporary own there suits => exact ⟨.nothing (some temporary), .unmasked own there suits⟩
  | @unmasked temporary own there suits => exact ⟨.nothing (some temporary), .measured own there suits⟩
  | @measured temporary mode own there suits =>
    rw [AtomicWrite.step]
    split
    · next answer =>
      obtain rfl := Except.ok.inj (attempt_ok answer)
      rw [FileSystem.setMode, FileSystem.modify, here there]
      exact ⟨.change _ _, .prepared own (FileSystem.find?_put_self own.inside _) suits⟩
    · exact ⟨.nothing (some temporary), .failing own there⟩
  | @prepared temporary mode own there suits =>
    rw [AtomicWrite.step]
    split
    · next answer =>
      obtain ⟨d, n, node, located, source, permitted, rfl⟩ := FileSystem.replace_ok (attempt_ok answer)
      have start := (rely.locate _).1 located
      rw [rely.place start, Call.find?_view] at permitted
      rw [here there] at source
      cases source
      have fits := suits d n start
      rw [rely.place start] at fits ⊢
      rw [← fits fun blocked => permitted ((rely.directories _).2 blocked)]
      exact ⟨.replace permitted, .ended⟩
    · exact ⟨.nothing (some temporary), .failing own there⟩
  | failing own there => exact ⟨.remove, .ended⟩
  | @ended result => cases result <;> exact ⟨.nothing none, .ended⟩

/-- What a phase says is about the temporary file and nothing else. -/
theorem Stage.frame {shared' : FileSystem} (h : Stage call fs shared phase umask)
    (same : ∀ temporary, phase.temporary? = some temporary → shared'.find? temporary = shared.find? temporary) :
    Stage call fs shared' phase umask := by
  cases h with
  | start => exact .start
  | created own here => exact .created own ((same _ rfl).trans here)
  | filled own here => exact .filled own ((same _ rfl).trans here)
  | unmeasured own here suits => exact .unmeasured own ((same _ rfl).trans here) suits
  | unmasked own here suits => exact .unmasked own ((same _ rfl).trans here) suits
  | measured own here suits => exact .measured own ((same _ rfl).trans here) suits
  | prepared own here suits => exact .prepared own ((same _ rfl).trans here) suits
  | failing own here => exact .failing own ((same _ rfl).trans here)
  | ended => exact .ended

theorem Stage.own (h : Stage call fs shared phase umask) {temporary : Trail}
    (holds : phase.temporary? = some temporary) :
    Own call.job fs temporary ∧ ∃ mode octets, shared.find? temporary = some (.file mode octets) := by
  cases h <;> cases holds <;> exact ⟨‹_›, _, _, ‹_›⟩

end CInterface.AtomicWrite
