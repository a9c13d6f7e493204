import CInterface.Generation
import CInterface.Proofs.AtomicWrite.Progress

/-!
# Writes are atomic

Whichever calls fail, a write ends either with the whole new file at the destination and nothing else changed, or with
the error of the call that failed and nothing changed at all. Whoever looks at the destination in between sees what was
there before or the whole new file. A generation into a file changes the file system by such a write or not at all.
-/

namespace CInterface

theorem Text.encode_eq_toUTF8 (s : String) : Text.encode s = s.toUTF8.data.toList := by
  have octets := s.utf8Encode_toList
  simp [Text.encode, String.toUTF8, ← octets, List.utf8Encode]

namespace AtomicWrite

variable {job : Job} {faults : Phase → Option SystemError} {fs fs' : FileSystem}

/-- The call made in a phase fails with an error, and the write with it. That nothing is at the destination is an
answer, with which a write goes on. -/
def FailsWith (job : Job) (fault : Option SystemError) (phase : Phase) (fs : FileSystem) (e : SystemError) : Prop :=
  match phase with
  | .start => attempt fault (fs.createTemporary job.destination) = .error e
  | .created _ | .measured _ _ => fault = some e
  | .filled _ => attempt fault (fs.modeAt job.destination) = .error e ∧ e ≠ .noEntry
  | .prepared temporary => attempt fault (fs.replace temporary job.destination) = .error e
  | .unmeasured _ | .unmasked _ _ | .failing _ _ | .ended _ => False

/-- A write in a phase ends with an error, since a call has failed with it. -/
def Phase.Failed (phase : Phase) (e : SystemError) : Prop :=
  match phase with
  | .failing _ cause => cause = e
  | .ended result => result = .error e
  | _ => False

theorem attempt_done {α : Type} {fault : Option SystemError} {a : α} {e : SystemError} :
    attempt fault (.ok a) = .error e ↔ fault = some e := by
  cases fault <;> simp [attempt]

theorem failed_step (job : Job) (fault : Option SystemError) (phase : Phase) (fs : FileSystem) (e : SystemError) :
    (step job fault phase fs).1.Failed e ↔ phase.Failed e ∨ FailsWith job fault phase fs e := by
  cases phase with
  | start =>
    cases answer : attempt fault (fs.createTemporary job.destination) <;>
      simp [step, FailsWith, Phase.Failed, answer]
  | created temporary =>
    rw [FailsWith, ← attempt_done (a := fs.setOctets temporary job.octets)]
    cases answer : attempt fault (.ok (fs.setOctets temporary job.octets)) <;> simp [step, Phase.Failed, answer]
  | filled temporary =>
    cases answer : attempt fault (fs.modeAt job.destination) with
    | ok mode => simp [step, FailsWith, Phase.Failed, answer]
    | error cause =>
      by_cases absent : cause = .noEntry
      · simp [step, FailsWith, Phase.Failed, answer, absent, eq_comm]
      · have other : cause = e → e ≠ .noEntry := fun same => same ▸ absent
        simpa [step, FailsWith, Phase.Failed, answer, absent] using other
  | unmeasured temporary => simp [step, Phase.Failed, FailsWith]
  | unmasked temporary mask => simp [step, Phase.Failed, FailsWith]
  | measured temporary mode =>
    rw [FailsWith, ← attempt_done (a := fs.setMode temporary mode)]
    cases answer : attempt fault (.ok (fs.setMode temporary mode)) <;> simp [step, Phase.Failed, answer]
  | prepared temporary =>
    cases answer : attempt fault (fs.replace temporary job.destination) <;>
      simp [step, FailsWith, Phase.Failed, answer]
  | failing temporary cause => simp [step, Phase.Failed, FailsWith]
  | ended result => simp [step, Phase.Failed, FailsWith]

/-- The call made after a number of steps fails with an error, and the write with it. -/
def FailsAfter (job : Job) (faults : Phase → Option SystemError) (fs : FileSystem) (n : Nat) (e : SystemError) : Prop :=
  FailsWith job (faults (after job faults fs n).1) (after job faults fs n).1 (after job faults fs n).2 e

theorem failed_after (job : Job) (faults : Phase → Option SystemError) (fs : FileSystem) (n : Nat) (e : SystemError) :
    (after job faults fs n).1.Failed e ↔ ∃ k < n, FailsAfter job faults fs k e := by
  induction n with
  | zero => simp [after, Phase.Failed]
  | succ n ih => rw [after, failed_step, ih, Nat.exists_lt_succ_right, FailsAfter]

theorem after_of_ended {n : Nat} {result : Except SystemError Unit}
    (h : after job faults fs n = (.ended result, fs')) {k : Nat} (later : n ≤ k) :
    after job faults fs k = (.ended result, fs') := by
  induction later with
  | refl => exact h
  | step _ ih => rw [after, ih, step]

/-- A write fails with the errors of its calls, and with no other. -/
theorem finish_eq_error_iff (job : Job) (faults : Phase → Option SystemError) (fs : FileSystem) (e : SystemError) :
    (finish job faults .start fs).1 = .error e ↔ ∃ n, FailsAfter job faults fs n e := by
  obtain ⟨last, ends⟩ := exists_after_eq_finish job faults fs
  -- the write stays as it has ended, so that its last step may be looked at as late as need be
  have failed (k : Nat) (later : last ≤ k) :
      (after job faults fs k).1.Failed e ↔ (finish job faults .start fs).1 = .error e := by
    rw [after_of_ended ends later, Phase.Failed]
  constructor
  · intro h
    obtain ⟨k, -, fails⟩ := (failed_after job faults fs last e).1 ((failed last (Nat.le_refl _)).2 h)
    exact ⟨k, fails⟩
  · rintro ⟨n, fails⟩
    have early : n < max last (n + 1) := by omega
    exact (failed _ (Nat.le_max_left _ _)).1 ((failed_after job faults fs _ e).2 ⟨n, early, fails⟩)

/-- The destination, which was no directory, is a file with the octets of the job, of the mode of the file that was
there or else of a new file, and nothing else is changed. -/
structure Replaced (job : Job) (faults : Phase → Option SystemError) (fs fs' : FileSystem) (directory : Trail)
    (name : String) (mode : Nat) : Prop where
  located : fs.locate job.destination = .ok (.entry directory name)
  notDirectory : fs.find? (directory ++ [name]) ≠ some .directory
  mode_kept : (∀ phase, Honest (faults phase) phase) → mode = fs.modeFor (directory ++ [name])
  /-- Also if the system is not honest. -/
  mode_given : mode = fs.modeFor (directory ++ [name]) ∨ mode = fs.newMode
  entries : ∀ trail, fs'.find? trail =
    if trail = directory ++ [name] then some (.file mode job.octets) else fs.find? trail
  workingDirectory : fs'.workingDirectory = fs.workingDirectory
  umask : fs'.umask = fs.umask

/-- At most one entry has been added. All that was there is as it was, and so is the destination, whether something
was there or not. -/
structure Unharmed (job : Job) (fs fs' : FileSystem) : Prop where
  added : ∃ temporary, ∀ trail, trail ≠ temporary → fs'.find? trail = fs.find? trail
  kept : ∀ trail, fs.find? trail ≠ none → fs'.find? trail = fs.find? trail
  destination : ∀ directory name, fs.locate job.destination = .ok (.entry directory name) →
    fs'.find? (directory ++ [name]) = fs.find? (directory ++ [name])
  workingDirectory : fs'.workingDirectory = fs.workingDirectory

theorem Unharmed.refl (job : Job) (fs : FileSystem) : Unharmed job fs fs :=
  ⟨⟨[], fun _ _ => rfl⟩, fun _ _ => rfl, fun _ _ _ => rfl, rfl⟩

theorem Own.unharmed_put {temporary : Trail} (own : Own job fs temporary) (node : Node) :
    Unharmed job fs (fs.put temporary node) where
  added := ⟨temporary, fun _ other => FileSystem.find?_put_of_ne own.inside node other⟩
  kept _ there := FileSystem.find?_put_of_ne own.inside node fun same => there (same ▸ own.fresh)
  destination _ _ located := FileSystem.find?_put_of_ne own.inside node (own.ne_destination located)
  workingDirectory := rfl

theorem replaced_put {directory : Trail} {name : String} {mode : Nat}
    (located : fs.locate job.destination = .ok (.entry directory name))
    (notDirectory : fs.find? (directory ++ [name]) ≠ some .directory) (fits : Fits job faults fs mode) :
    Replaced job faults fs (fs.put (directory ++ [name]) (.file mode job.octets)) directory name mode where
  located := located
  notDirectory := notDirectory
  mode_kept := fits.kept directory name located
  mode_given := fits.given directory name located
  entries := FileSystem.find?_put (by simp) _
  workingDirectory := rfl
  umask := rfl

/-- The mask does not show in the entries. -/
theorem Unharmed.of_umask {mask : Nat} (h : Unharmed job fs fs') : Unharmed job fs { fs' with umask := mask } :=
  have same (trail : Trail) : ({ fs' with umask := mask } : FileSystem).find? trail = fs'.find? trail := by
    cases trail <;> rfl
  ⟨h.added.imp fun _ same' trail other => (same trail).trans (same' trail other),
    fun trail there => (same trail).trans (h.kept trail there),
    fun _ _ located => (same _).trans (h.destination _ _ located), h.workingDirectory⟩

theorem Reached.old_or_new {phase : Phase} (h : Reached job faults fs phase fs') :
    Unharmed job fs fs' ∨ ∃ directory name mode, Replaced job faults fs fs' directory name mode := by
  cases h with
  | start => exact .inl (.refl job fs)
  | created own => exact .inl (own.unharmed_put _)
  | filled own => exact .inl (own.unharmed_put _)
  | unmeasured own _ => exact .inl (own.unharmed_put _)
  | unmasked own _ => exact .inl (own.unharmed_put _).of_umask
  | measured own _ => exact .inl (own.unharmed_put _)
  | prepared own _ => exact .inl (own.unharmed_put _)
  | failing own => exact .inl (own.unharmed_put _)
  | failed => exact .inl (.refl job fs)
  | replaced located notDirectory fits => exact .inr ⟨_, _, _, replaced_put located notDirectory fits⟩

theorem reached_finish (job : Job) (faults : Phase → Option SystemError) (fs : FileSystem) :
    Reached job faults fs (.ended (finish job faults .start fs).1) (finish job faults .start fs).2 := by
  obtain ⟨n, ends⟩ := exists_after_eq_finish job faults fs
  have reached := reached_after job faults fs n
  rwa [ends] at reached

/-- What holds of a write: it either replaces the destination or changes nothing, it fails just if one of its calls
fails, and in between the destination is what it was or is replaced. -/
structure Atomic (job : Job) (faults : Phase → Option SystemError) (fs : FileSystem) : Prop where
  succeeds : (finish job faults .start fs).1 = .ok () →
    ∃ directory name mode, Replaced job faults fs (finish job faults .start fs).2 directory name mode
  fails : ∀ e, (finish job faults .start fs).1 = .error e → (finish job faults .start fs).2 = fs
  failure : ∀ e, (finish job faults .start fs).1 = .error e ↔ ∃ n, FailsAfter job faults fs n e
  meanwhile : ∀ n, Unharmed job fs (after job faults fs n).2 ∨
    ∃ directory name mode, Replaced job faults fs (after job faults fs n).2 directory name mode

theorem atomic (job : Job) (faults : Phase → Option SystemError) (fs : FileSystem) : Atomic job faults fs where
  succeeds h := by
    have reached := reached_finish job faults fs
    generalize finish job faults .start fs = outcome at *
    obtain ⟨result, fs'⟩ := outcome
    obtain rfl : result = .ok () := h
    cases reached with
    | replaced located notDirectory fits => exact ⟨_, _, _, replaced_put located notDirectory fits⟩
  fails e h := by
    have reached := reached_finish job faults fs
    generalize finish job faults .start fs = outcome at *
    obtain ⟨result, fs'⟩ := outcome
    obtain rfl : result = .error e := h
    cases reached with
    | failed => rfl
  failure := finish_eq_error_iff job faults fs
  meanwhile n := (reached_after job faults fs n).old_or_new

/-- A path to an entry that is no directory takes a temporary file. -/
theorem Own.replace_put_ok {temporary directory : Trail} {name : String} (own : Own job fs temporary)
    (located : fs.locate job.destination = .ok (.entry directory name))
    (notDirectory : fs.find? (directory ++ [name]) ≠ some .directory) (mode : Nat) (octets : List UInt8) :
    (fs.put temporary (.file mode octets)).replace temporary job.destination
      = .ok (fs.put (directory ++ [name]) (.file mode octets)) := by
  rw [FileSystem.replace, (FileSystem.locate_put own.fresh mode octets _ _).2 located]
  simp only [bind, Except.bind, FileSystem.find?_put_self own.inside,
    FileSystem.find?_put_of_ne own.inside _ (own.ne_destination located), FileSystem.remove_put own.fresh]
  rfl

/-- A write succeeds, unless a call is made to fail, just if a temporary file can be made and the path of the
destination leads to an entry that is no directory. -/
theorem write_ok_iff (job : Job) (fs : FileSystem) :
    (write job fs).1 = .ok () ↔ (∃ made, fs.createTemporary job.destination = .ok made) ∧
      ∃ directory name, fs.locate job.destination = .ok (.entry directory name) ∧
        fs.find? (directory ++ [name]) ≠ some .directory := by
  have whole := atomic job (fun _ => none) fs
  constructor
  · intro h
    obtain ⟨directory, name, mode, replaced⟩ := whole.succeeds h
    refine ⟨?_, directory, name, replaced.located, replaced.notDirectory⟩
    cases answer : fs.createTemporary job.destination with
    | ok made => exact ⟨made, rfl⟩
    | error e =>
      have failed := (whole.failure e).2 ⟨0, answer⟩
      rw [write] at h
      rw [h] at failed
      cases failed
  · rintro ⟨⟨made, answer⟩, directory, name, located, notDirectory⟩
    cases outcome : (write job fs).1 with
    | ok _ => rfl
    | error e =>
      obtain ⟨n, fails⟩ := (whole.failure e).1 outcome
      have reached := reached_after job (fun _ => none) fs n
      rw [FailsAfter] at fails
      generalize after job (fun _ => none) fs n = point at *
      obtain ⟨phase, fs'⟩ := point
      simp only at fails reached
      cases reached with
      | start =>
        rw [FailsWith, attempt, answer] at fails
        cases fails
      | filled own =>
        obtain ⟨fails, present⟩ := fails
        rw [attempt, own.modeAt_put located, FileSystem.modeAt_eq located] at fails
        cases there : fs.find? (directory ++ [name]) with
        | none =>
          rw [there] at fails
          exact absurd (Except.error.inj fails).symm present
        | some node =>
          rw [there] at fails
          cases fails
      | prepared own _ =>
        rw [FailsWith, attempt, own.replace_put_ok located notDirectory] at fails
        cases fails
      | _ => cases fails

end AtomicWrite

/-! ## Generations into files -/

/-- What a generation into a file comes to, and what it makes of the file system, if `made` is what there is to write:
it is turned down just if there is nothing to write, it fails just if a call of the write fails, with nothing changed
either way, and else it has replaced its destination. -/
structure AtomicGeneration (destination : String) (made : Except WriterError Generated)
    (faults : AtomicWrite.Phase → Option SystemError) (fs : FileSystem)
    (outcome : Except GenerationError Generated × FileSystem) : Prop where
  turned_down : ∀ e, outcome.1 = .error (.writer e) ↔ made = .error e
  failure : ∀ path e, outcome.1 = .error (.output path e) ↔ path = .ofString destination ∧
    ∃ g, made = .ok g ∧ ∃ n, AtomicWrite.FailsAfter (.ofText path g.text) faults fs n e
  fails : ∀ e, outcome.1 = .error e → outcome.2 = fs
  succeeds : ∀ g, outcome.1 = .ok g → made = .ok g ∧
    AtomicWrite.finish (.ofText (.ofString destination) g.text) faults .start fs = (.ok (), outcome.2) ∧
      ∃ directory name mode,
        AtomicWrite.Replaced (.ofText (.ofString destination) g.text) faults fs outcome.2 directory name mode

section

variable [Memory] (modules : List Source.Module) (destination : String) (writer : Option String)
  (options : Json.Members) (environment : Option String)

/-- What there is to write to a destination, unless an option is named like it or nothing is generated. -/
def generateFor : Except WriterError Generated :=
  match reservedOption? ["destination"] options with
  | some name => .error (.option (.unknown name))
  | none => (generate modules destination writer options environment).2

variable (faults : AtomicWrite.Phase → Option SystemError) (fs : FileSystem)

/-- A generation into a file is turned down, or it comes to what the write of the text comes to. -/
theorem generateFileUnder_eq : (generateFileUnder faults modules destination writer options environment fs).2
    = match generateFor modules destination writer options environment with
      | .error e => (.error (.writer e), fs)
      | .ok g =>
        match AtomicWrite.finish (.ofText (.ofString destination) g.text) faults .start fs with
        | (.error e, fs') => (.error (.output (.ofString destination) e), fs')
        | (.ok (), fs') => (.ok g, fs') := by
  rw [generateFileUnder, generateFor]
  cases reservedOption? ["destination"] options with
  | some name => rfl
  | none =>
    obtain ⟨events, made⟩ := generate modules destination writer options environment
    cases made with
    | error e => rfl
    | ok g =>
      dsimp only
      generalize AtomicWrite.finish (.ofText (.ofString destination) g.text) faults .start fs = written
      obtain ⟨e | _, fs'⟩ := written <;> rfl

theorem atomicGeneration :
    AtomicGeneration destination (generateFor modules destination writer options environment) faults fs
      (generateFileUnder faults modules destination writer options environment fs).2 := by
  rw [generateFileUnder_eq]
  cases generateFor modules destination writer options environment with
  | error e => constructor <;> simp [eq_comm]
  | ok g =>
    obtain ⟨succeeds, fails, failure, -⟩ := AtomicWrite.atomic (.ofText (.ofString destination) g.text) faults fs
    dsimp only
    generalize written : AtomicWrite.finish (.ofText (.ofString destination) g.text) faults .start fs = done at *
    obtain ⟨e | _, fs'⟩ := done
    · refine ⟨by simp, fun path e' => ?_, fun _ _ => fails e rfl, by simp⟩
      simp only [Except.error.injEq, GenerationError.output.injEq, Except.ok.injEq, exists_eq_left',
        eq_comm (b := path)]
      refine and_congr_right ?_
      rintro rfl
      rw [← failure, Except.error.injEq]
    · refine ⟨by simp, fun path e' => ?_, by simp, ?_⟩
      · simp only [reduceCtorEq, Except.ok.injEq, exists_eq_left', false_iff]
        rintro ⟨rfl, failed⟩
        cases (failure e').2 failed
      · rintro _ ⟨⟩
        exact ⟨rfl, written, succeeds rfl⟩

end

/-- Every write is atomic, whatever is written where and whichever calls fail, and so is every generation into a file,
whether or not it is turned down. -/
theorem writes_atomic [Memory] (faults : AtomicWrite.Phase → Option SystemError) (fs : FileSystem) :
    (∀ destination text, (AtomicWrite.Job.ofText destination text).octets = text.toUTF8.data.toList ∧
      AtomicWrite.Atomic (.ofText destination text) faults fs) ∧
    ∀ modules destination writer options environment,
      AtomicGeneration destination (generateFor modules destination writer options environment) faults fs
        (generateFileUnder faults modules destination writer options environment fs).2 :=
  ⟨fun destination text => ⟨Text.encode_eq_toUTF8 text, AtomicWrite.atomic (.ofText destination text) faults fs⟩,
    fun modules destination writer options environment =>
      atomicGeneration modules destination writer options environment faults fs⟩

end CInterface
