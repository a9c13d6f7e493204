import CInterface.AtomicWrite
import CInterface.Proofs.FileSystem.Entries

/-!
# How far a write has come

What each phase of a write says about the file system: until the last call a temporary file has been added to it and
nothing else has changed, but for the mask while it is being read. A step leads from phases that hold to one that
holds, so that the phases of a whole run hold, whichever of its calls fail.
-/

namespace CInterface.AtomicWrite

variable {job : Job} {faults : Phase → Option SystemError} {fs fs' : FileSystem}

/-- A temporary file of one's own: nothing was in its place, and it is named after the destination. -/
structure Own (job : Job) (fs : FileSystem) (temporary : Trail) : Prop where
  fresh : fs.find? temporary = none
  named : ∃ directory number, temporary = directory ++ [FilePath.temporaryName job.destination.name number]

theorem Own.inside {temporary : Trail} (own : Own job fs temporary) : temporary ≠ [] :=
  FileSystem.ne_nil_of_find?_eq_none own.fresh

theorem Own.ne_destination {temporary directory : Trail} {name : String} (own : Own job fs temporary)
    (located : fs.locate job.destination = .ok (.entry directory name)) : directory ++ [name] ≠ temporary := by
  obtain ⟨other, number, rfl⟩ := own.named
  intro same
  have names : name = FilePath.temporaryName job.destination.name number := by
    simpa using (List.append_inj_right' same rfl)
  rw [FileSystem.name_of_locate located] at names
  exact FileSystem.temporaryName_ne _ _ names.symm

/-- What the system is relied on for: whatever fails, it answers that nothing is at the destination only where nothing
is. -/
def Honest (fault : Option SystemError) (phase : Phase) : Prop :=
  ∀ temporary, phase = .filled temporary → fault ≠ some .noEntry

/-- A mode that fits the destination: that of the file there, or that of a new file, which an honest system does not
lead to where there is a file. -/
structure Fits (job : Job) (faults : Phase → Option SystemError) (fs : FileSystem) (mode : Nat) : Prop where
  kept : ∀ directory name, fs.locate job.destination = .ok (.entry directory name) →
    (∀ phase, Honest (faults phase) phase) → mode = fs.modeFor (directory ++ [name])
  given : ∀ directory name, fs.locate job.destination = .ok (.entry directory name) →
    mode = fs.modeFor (directory ++ [name]) ∨ mode = fs.newMode

/-- The mode of what is at the destination is not touched by a temporary file. -/
theorem Own.modeAt_put {temporary directory : Trail} {name : String} (own : Own job fs temporary)
    (located : fs.locate job.destination = .ok (.entry directory name)) (mode : Nat) (octets : List UInt8) :
    (fs.put temporary (.file mode octets)).modeAt job.destination = fs.modeAt job.destination := by
  rw [FileSystem.modeAt_eq located, FileSystem.modeAt_eq ((FileSystem.locate_put own.fresh mode octets _ _).2 located),
    FileSystem.find?_put_of_ne own.inside _ (own.ne_destination located)]

theorem Fits.of_modeFor {mode : Nat}
    (h : ∀ directory name, fs.locate job.destination = .ok (.entry directory name) →
      mode = fs.modeFor (directory ++ [name])) : Fits job faults fs mode :=
  ⟨fun _ _ located _ => h _ _ located, fun _ _ located => .inl (h _ _ located)⟩

theorem Own.fits_of_ok {temporary : Trail} (own : Own job fs temporary) {mode : Nat} {fault : Option SystemError}
    {octets : List UInt8} {measured : Nat}
    (answer : attempt fault ((fs.put temporary (.file mode octets)).modeAt job.destination) = .ok measured) :
    Fits job faults fs measured := by
  refine .of_modeFor fun directory name located => ?_
  cases fault with
  | some e => cases answer
  | none =>
    rw [attempt, own.modeAt_put located, FileSystem.modeAt_eq located] at answer
    rw [FileSystem.modeFor]
    cases there : fs.find? (directory ++ [name]) with
    | none =>
      rw [there] at answer
      cases answer
    | some node =>
      rw [there] at answer
      exact (Except.ok.inj answer).symm

theorem Own.fits_of_noEntry {temporary : Trail} (own : Own job fs temporary) {mode : Nat} {octets : List UInt8}
    (answer : attempt (faults (.filled temporary))
      ((fs.put temporary (.file mode octets)).modeAt job.destination) = .error .noEntry) :
    Fits job faults fs fs.newMode := by
  cases fault : faults (.filled temporary) with
  | some e =>
    rw [fault] at answer
    have claimed : faults (.filled temporary) = some .noEntry := by rw [fault, Except.error.inj answer]
    exact ⟨fun _ _ _ honest => absurd claimed (honest _ temporary rfl), fun _ _ _ => .inr rfl⟩
  | none =>
    refine .of_modeFor fun directory name located => ?_
    rw [fault, attempt, own.modeAt_put located, FileSystem.modeAt_eq located] at answer
    rw [FileSystem.modeFor]
    cases there : fs.find? (directory ++ [name]) with
    | none => rfl
    | some node =>
      rw [there] at answer
      cases answer

/-- The phases that a write of a job comes to from a file system, each with what it has made of it. -/
inductive Reached (job : Job) (faults : Phase → Option SystemError) (fs : FileSystem) : Phase → FileSystem → Prop
  | start : Reached job faults fs .start fs
  | created {temporary : Trail} (own : Own job fs temporary) :
      Reached job faults fs (.created temporary) (fs.put temporary (.file 0o600 []))
  | filled {temporary : Trail} (own : Own job fs temporary) :
      Reached job faults fs (.filled temporary) (fs.put temporary (.file 0o600 job.octets))
  | unmeasured {temporary : Trail} (own : Own job fs temporary) (fits : Fits job faults fs fs.newMode) :
      Reached job faults fs (.unmeasured temporary) (fs.put temporary (.file 0o600 job.octets))
  | unmasked {temporary : Trail} (own : Own job fs temporary) (fits : Fits job faults fs fs.newMode) :
      Reached job faults fs (.unmasked temporary fs.umask)
        { fs.put temporary (.file 0o600 job.octets) with umask := 0 }
  | measured {temporary : Trail} {mode : Nat} (own : Own job fs temporary) (fits : Fits job faults fs mode) :
      Reached job faults fs (.measured temporary mode) (fs.put temporary (.file 0o600 job.octets))
  | prepared {temporary : Trail} {mode : Nat} (own : Own job fs temporary) (fits : Fits job faults fs mode) :
      Reached job faults fs (.prepared temporary) (fs.put temporary (.file mode job.octets))
  | failing {temporary : Trail} {e : SystemError} {mode : Nat} {octets : List UInt8} (own : Own job fs temporary) :
      Reached job faults fs (.failing temporary e) (fs.put temporary (.file mode octets))
  | failed {e : SystemError} : Reached job faults fs (.ended (.error e)) fs
  | replaced {directory : Trail} {name : String} {mode : Nat}
      (located : fs.locate job.destination = .ok (.entry directory name))
      (notDirectory : fs.find? (directory ++ [name]) ≠ some .directory) (fits : Fits job faults fs mode) :
      Reached job faults fs (.ended (.ok ())) (fs.put (directory ++ [name]) (.file mode job.octets))

theorem attempt_ok {α : Type} {fault : Option SystemError} {call : Except SystemError α} {a : α}
    (h : attempt fault call = .ok a) : call = .ok a := by
  cases fault with
  | none => exact h
  | some e => cases h

/-- The temporary file takes the place of the destination, and nothing is left of it. -/
theorem Own.replace_put {temporary : Trail} (own : Own job fs temporary) {mode : Nat} {octets : List UInt8}
    (h : (fs.put temporary (.file mode octets)).replace temporary job.destination = .ok fs') :
    ∃ directory name, fs.locate job.destination = .ok (.entry directory name) ∧
      fs.find? (directory ++ [name]) ≠ some .directory ∧ fs' = fs.put (directory ++ [name]) (.file mode octets) := by
  obtain ⟨directory, name, node, located, there, notDirectory, rfl⟩ := FileSystem.replace_ok h
  have located := (FileSystem.locate_put own.fresh mode octets _ _).1 located
  rw [FileSystem.find?_put_of_ne own.inside _ (own.ne_destination located)] at notDirectory
  rw [FileSystem.find?_put_self own.inside] at there
  cases there
  exact ⟨directory, name, located, notDirectory, by rw [FileSystem.remove_put own.fresh]⟩

theorem Reached.step {phase : Phase} (h : Reached job faults fs phase fs') :
    Reached job faults fs (step job (faults phase) phase fs').1 (step job (faults phase) phase fs').2 := by
  cases h with
  | start =>
    rw [AtomicWrite.step]
    split
    · next temporary made answer =>
      obtain ⟨named, fresh, rfl⟩ := FileSystem.createTemporary_ok (attempt_ok answer)
      exact .created ⟨fresh, named⟩
    · exact .failed
  | created own =>
    rw [AtomicWrite.step]
    split
    · next answer =>
      obtain rfl := Except.ok.inj (attempt_ok answer)
      rw [FileSystem.setOctets_put own.inside]
      exact .filled own
    · exact .failing own
  | filled own =>
    rw [AtomicWrite.step]
    split
    · next answer => exact .measured own (own.fits_of_ok answer)
    · next answer =>
      split
      · next absent => exact .unmeasured own (own.fits_of_noEntry (absent ▸ answer))
      · exact .failing own
  | unmeasured own fits => exact .unmasked own fits
  | unmasked own fits => exact .measured own fits
  | measured own fits =>
    rw [AtomicWrite.step]
    split
    · next answer =>
      obtain rfl := Except.ok.inj (attempt_ok answer)
      rw [FileSystem.setMode_put own.inside]
      exact .prepared own fits
    · exact .failing own
  | prepared own fits =>
    rw [AtomicWrite.step]
    split
    · next answer =>
      obtain ⟨directory, name, located, notDirectory, rfl⟩ := own.replace_put (attempt_ok answer)
      exact .replaced located notDirectory fits
    · exact .failing own
  | failing own =>
    rw [AtomicWrite.step, FileSystem.remove_put own.fresh]
    exact .failed
  | failed => exact .failed
  | replaced located notDirectory fits => exact .replaced located notDirectory fits

/-- Where a write stands after a number of steps. -/
def after (job : Job) (faults : Phase → Option SystemError) (fs : FileSystem) : Nat → Phase × FileSystem
  | 0 => (.start, fs)
  | n + 1 => step job (faults (after job faults fs n).1) (after job faults fs n).1 (after job faults fs n).2

theorem reached_after (job : Job) (faults : Phase → Option SystemError) (fs : FileSystem) (n : Nat) :
    Reached job faults fs (after job faults fs n).1 (after job faults fs n).2 := by
  induction n with
  | zero => exact .start
  | succ n ih => exact ih.step

theorem remaining_after (job : Job) (faults : Phase → Option SystemError) (fs : FileSystem) (n : Nat) :
    (after job faults fs n).1.remaining ≤ Phase.start.remaining - n := by
  induction n with
  | zero => exact Nat.le_refl _
  | succ n ih =>
    have less := remaining_step job (faults (after job faults fs n).1) (after job faults fs n).1
      (after job faults fs n).2
    rw [after]
    omega

theorem finish_step (job : Job) (faults : Phase → Option SystemError) (phase : Phase) (fs : FileSystem) :
    finish job faults phase fs
      = finish job faults (step job (faults phase) phase fs).1 (step job (faults phase) phase fs).2 := by
  cases phase with
  | ended result => rfl
  | _ => rw [finish]; rfl

theorem finish_after (job : Job) (faults : Phase → Option SystemError) (fs : FileSystem) (n : Nat) :
    finish job faults .start fs = finish job faults (after job faults fs n).1 (after job faults fs n).2 := by
  induction n with
  | zero => rfl
  | succ n ih => rw [ih, finish_step, after]

/-- A write comes to its end, and it ends as the last step leaves it. -/
theorem exists_after_eq_finish (job : Job) (faults : Phase → Option SystemError) (fs : FileSystem) :
    ∃ n, after job faults fs n = (.ended (finish job faults .start fs).1, (finish job faults .start fs).2) := by
  refine ⟨Phase.start.remaining, ?_⟩
  have none_left := remaining_after job faults fs Phase.start.remaining
  rw [finish_after job faults fs Phase.start.remaining]
  generalize after job faults fs Phase.start.remaining = last at *
  obtain ⟨phase, fs'⟩ := last
  cases phase with
  | ended result => rw [finish]; rfl
  | _ => simp [Phase.remaining] at none_left

end CInterface.AtomicWrite
