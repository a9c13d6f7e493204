import CInterface.Proofs.AtomicWrite.Atomicity
import CInterface.Proofs.CommandLine.Generating
import CInterface.Proofs.CommandLine.Inputs
import CInterface.Proofs.Json.RoundTrip

/-!
# How runs end

A run that is asked for a header reads its inputs, sets up its writer, generates and writes, in this order. The first
of these that fails ends it: then nothing is printed and no file has changed, and one error is told of. Otherwise the
text that was generated is printed, or else it is in the destination. Only an option that was left void keeps a run
from an end.
-/

namespace CInterface.CommandLine

open Source

variable {s : Settings} {files : Files} {faults : AtomicWrite.Phase → Option SystemError}
  {environment : Option String} {fs fs' : FileSystem} {o : Outcome} {modules : List Module}

/-- Errors are told of at every level. -/
theorem Settings.threshold_le (s : Settings) : s.threshold.rank ≤ Level.error.rank := by
  rw [threshold]
  split
  · decide
  · split <;> decide

theorem Settings.report_failed (s : Settings) (events : List Event) (message : String) :
    s.report (events ++ [.failed message]) = s.report events ++ ("ERROR: " ++ message ++ "\n") := by
  have told : [Event.failed message].filter (fun e => s.threshold.rank ≤ e.level.rank) = [.failed message] :=
    List.filter_eq_self.2 fun e he => List.mem_singleton.1 he ▸ decide_eq_true s.threshold_le
  have line : String.join [Level.error.label ++ ": " ++ message ++ "\n"] = "ERROR: " ++ message ++ "\n" := by
    rw [String.join_cons, String.join_nil, String.append_empty]
    rfl
  rw [report, List.filter_append, List.map_append, told, String.join_append]
  exact congrArg (_ ++ ·) line

/-- What a run generates for a target from modules that it has read. -/
def Settings.Generates [Memory] (s : Settings) (modules : List Module) (target : String) (environment : Option String)
    (g : Generated) : Prop :=
  ∃ writer, s.writer = .given writer ∧ (generate modules target (some writer) s.options environment).2 = .ok g

/-- A run comes to an option that was left void: to the front end at once, to the others once all inputs are read. -/
def Settings.BreaksDown (s : Settings) (files : Files) : Prop :=
  s.frontEnd = .void ∨
    (∀ p ∈ s.inputs, ∃ m, Holds files p m) ∧ (s.output = .void ∨ s.writer = .void ∨ s.ReachesVoid)

/-- What makes a run fail. -/
inductive Settings.Fails [Memory] (s : Settings) (files : Files) (faults : AtomicWrite.Phase → Option SystemError)
    (environment : Option String) (fs : FileSystem) : Prop
  | input {p : FilePath} {e : InputError} (mem : p ∈ s.inputs) (fault : Fault files p e)
  | guard (refused : s.Refused)
  | destination {path : FilePath} {modules : List Module} {g : Generated} {n : Nat} {e : SystemError}
      (output : s.output = .given path) (read : List.Forall₂ (Holds files) s.inputs modules)
      (generates : s.Generates modules path.text environment g)
      (call : AtomicWrite.FailsAfter (.ofText path g.text) faults fs n e)

/-- How a run has failed: nothing is printed, no file has changed, and one error is told of, that of the first input at
fault if there is one. -/
structure Settings.Failed (s : Settings) (files : Files) (fs fs' : FileSystem) (o : Outcome) : Prop where
  exit : o.exit = 1
  output : o.output = ""
  unchanged : fs' = fs
  errors : ∃ events message, (∀ e ∈ events, Event.level e ≠ .error) ∧
    o.errors = s.report events ++ ("ERROR: " ++ message ++ "\n")
  first : ∀ e, FirstFault files s.inputs e → o.errors = "ERROR: " ++ e.message ++ "\n"

/-- Where the text of a run is: it is printed and no file has changed, or it is in the destination and nothing is
printed. -/
inductive Settings.Delivers [Memory] (s : Settings) (modules : List Module)
    (faults : AtomicWrite.Phase → Option SystemError) (environment : Option String) (fs : FileSystem) :
    String → FileSystem → Prop
  | printed {first : FilePath} {rest : List FilePath} {g : Generated} (output : s.output = .absent)
      (inputs : s.inputs = first :: rest) (generates : s.Generates modules (first.stem ++ ".h") environment g) :
      Delivers s modules faults environment fs g.text fs
  | written {path : FilePath} {g : Generated} {fs' : FileSystem} {directory : Trail} {name : String} {mode : Nat}
      (output : s.output = .given path) (generates : s.Generates modules path.text environment g)
      (replaced : AtomicWrite.Replaced (.ofText path g.text) faults fs fs' directory name mode) :
      Delivers s modules faults environment fs "" fs'

/-- How a run has succeeded: its text is delivered, and no error is told of. -/
structure Settings.Succeeded [Memory] (s : Settings) (files : Files) (faults : AtomicWrite.Phase → Option SystemError)
    (environment : Option String) (fs fs' : FileSystem) (o : Outcome) : Prop where
  exit : o.exit = 0
  errors : ∃ events, (∀ e ∈ events, Event.level e ≠ .error) ∧ o.errors = s.report events
  delivers : ∃ modules, List.Forall₂ (Holds files) s.inputs modules ∧
    s.Delivers modules faults environment fs o.output fs'

/-- The three ways in which a run can end. -/
inductive Settings.Ends [Memory] (s : Settings) (files : Files) (faults : AtomicWrite.Phase → Option SystemError)
    (environment : Option String) (fs : FileSystem) : Option Outcome × FileSystem → Prop
  | broken (h : s.BreaksDown files) : Ends s files faults environment fs (none, fs)
  | failed {o : Outcome} {fs' : FileSystem} (clear : ¬ s.BreaksDown files)
      (fails : s.Fails files faults environment fs) (h : s.Failed files fs fs' o) :
      Ends s files faults environment fs (some o, fs')
  | succeeded {o : Outcome} {fs' : FileSystem} (clear : ¬ s.BreaksDown files)
      (fine : ¬ s.Fails files faults environment fs) (h : s.Succeeded files faults environment fs fs' o) :
      Ends s files faults environment fs (some o, fs')

theorem Settings.failed (s : Settings) {events : List Event} (quiet : ∀ e ∈ events, e.level ≠ .error) (message : String)
    (first : ∀ e, FirstFault files s.inputs e → events = [] ∧ message = e.message) :
    s.Failed files fs fs (s.failure events message) where
  exit := rfl
  output := rfl
  unchanged := rfl
  errors := ⟨events, message, quiet, s.report_failed events message⟩
  first e fault := by
    obtain ⟨rfl, rfl⟩ := first e fault
    exact (s.report_failed [] e.message).trans String.empty_append

theorem not_firstFault (read : List.Forall₂ (Holds files) s.inputs modules) (e : InputError) :
    ¬ FirstFault files s.inputs e := by
  intro fault
  cases (mapM_loadFile_ok.2 read).symm.trans (mapM_loadFile_error.2 fault)

theorem holds_of_read (read : List.Forall₂ (Holds files) s.inputs modules) {p : FilePath} (hp : p ∈ s.inputs) :
    ∃ m, Holds files p m :=
  let ⟨m, _, h⟩ := forall₂_mem_left read hp
  ⟨m, h⟩

theorem Settings.success_errors (s : Settings) {events : List Event} (quiet : ∀ e ∈ events, e.level ≠ .error)
    (output : String) (skipped : Nat) :
    ∃ told, (∀ e ∈ told, Event.level e ≠ .error) ∧ (s.success events output skipped).errors = s.report told := by
  refine ⟨_, fun e he => ?_, rfl⟩
  rcases List.mem_append.1 he with before | last
  · exact quiet e before
  · split at last
    · cases last
    · rw [List.mem_singleton.1 last]
      nofun

/-- Once the inputs are read and a writer is chosen, a run breaks down for a void output or a void option. -/
theorem breaksDown_iff (read : List.Forall₂ (Holds files) s.inputs modules) (front : s.frontEnd ≠ .void)
    {writer : String} (chosen : s.writer = .given writer) :
    s.BreaksDown files ↔ s.output = .void ∨ s.ReachesVoid := by
  have all : ∀ p ∈ s.inputs, ∃ m, Holds files p m := fun p hp => holds_of_read read hp
  rw [Settings.BreaksDown, or_iff_right front, and_iff_right all, chosen]
  simp only [reduceCtorEq, false_or]

section

variable [Memory]

theorem Settings.Generates.unique {target : String} {g g' : Generated} (h : s.Generates modules target environment g)
    (h' : s.Generates modules target environment g') : g = g' := by
  obtain ⟨writer, chosen, made⟩ := h
  obtain ⟨writer', chosen', made'⟩ := h'
  cases chosen.symm.trans chosen'
  exact Except.ok.inj (made.symm.trans made')

/-- With inputs that are read and a writer that is set up, only the destination can make a run fail. -/
theorem fails_iff (read : List.Forall₂ (Holds files) s.inputs modules) (fine : ¬ s.Refused) :
    s.Fails files faults environment fs ↔
      ∃ path g e, s.output = .given path ∧ s.Generates modules path.text environment g ∧
        (AtomicWrite.finish (.ofText path g.text) faults .start fs).1 = .error e := by
  constructor
  · intro fails
    cases fails with
    | input mem fault => exact absurd (holds_of_read read mem) (not_holds_iff.2 ⟨_, fault⟩)
    | guard refused => exact absurd refused fine
    | @destination path modules' g n e output read' generates call =>
      obtain rfl := Except.ok.inj ((mapM_loadFile_ok.2 read).symm.trans (mapM_loadFile_ok.2 read'))
      exact ⟨path, g, e, output, generates, (AtomicWrite.finish_eq_error_iff _ faults fs e).2 ⟨n, call⟩⟩
  · rintro ⟨path, g, e, output, generates, failed⟩
    obtain ⟨n, call⟩ := (AtomicWrite.finish_eq_error_iff _ faults fs e).1 failed
    exact .destination output read generates call

section

variable {writer : String} (read : List.Forall₂ (Holds files) s.inputs modules) (front : s.frontEnd ≠ .void)
  (chosen : s.writer = .given writer) (known : writer ∈ Writer.registry.names)

include read front chosen known

/-- A run whose output is not void ends as its generation does, if it comes to a text. -/
theorem ends_generating (output : s.output ≠ .void) (target : String) (proceed : List Event → Generated → Plan)
    (onwards : ∀ events g, (∀ e ∈ events, Event.level e ≠ .error) → s.Generates modules target environment g →
      ¬ s.BreaksDown files → ¬ s.Refused → s.Ends files faults environment fs ((proceed events g).carryOut faults fs)) :
    s.Ends files faults environment fs
      ((s.planGeneration modules target writer environment proceed).carryOut faults fs) := by
  have breaks : s.BreaksDown files ↔ s.ReachesVoid := by
    rw [breaksDown_iff read front chosen, or_iff_right output]
  have settles := generate_settles chosen known read target environment
  have quiet : ∀ e ∈ (generate modules target (some writer) s.options environment).1, e.level ≠ .error :=
    fun e => generate_quiet
  have generates := fun g made => (⟨writer, chosen, made⟩ : s.Generates modules target environment g)
  rw [Settings.planGeneration]
  generalize generate modules target (some writer) s.options environment = result at *
  obtain ⟨events, result⟩ := result
  cases settles with
  | void reached silent =>
    simp only [silent]
    exact .broken (breaks.2 reached)
  | @refused e message clear refused told =>
    simp only [told]
    refine .failed (fun h => clear (breaks.1 h)) (.guard refused) (s.failed quiet message fun e fault => ?_)
    exact absurd fault (not_firstFault read e)
  | @done g clear fine => exact onwards events g quiet (generates g rfl) (fun h => clear (breaks.1 h)) fine

/-- A run without a destination prints. -/
theorem ends_printing (output : s.output = .absent) {first : FilePath} {rest : List FilePath}
    (inputs : s.inputs = first :: rest) :
    s.Ends files faults environment fs ((s.planModules modules environment).carryOut faults fs) := by
  have target : s.target = first.stem ++ ".h" := by rw [Settings.target, inputs]
  simp only [Settings.planModules, output, chosen, target]
  refine ends_generating read front chosen known (by simp [output]) _ _ fun events g quiet generates clear fine => ?_
  have goes : ¬ s.Fails files faults environment fs := by
    rw [fails_iff read fine, output]
    nofun
  exact .succeeded clear goes ⟨rfl, s.success_errors quiet _ _, modules, read, .printed output inputs generates⟩

/-- A run with a destination writes it. -/
theorem ends_writing {path : FilePath} (output : s.output = .given path) :
    s.Ends files faults environment fs ((s.planModules modules environment).carryOut faults fs) := by
  simp only [Settings.planModules, output, chosen]
  refine ends_generating read front chosen known (by simp [output]) _ _ fun events g quiet generates clear fine => ?_
  have atomic := AtomicWrite.atomic (.ofText path g.text) faults fs
  rw [Plan.carryOut]
  cases written : AtomicWrite.finish (.ofText path g.text) faults .start fs with
  | mk result fs' =>
    cases result with
    | error e =>
      have failed : (AtomicWrite.finish (.ofText path g.text) faults .start fs).1 = .error e := by rw [written]
      have unchanged : fs' = fs := by
        rw [← atomic.fails e failed, written]
      subst unchanged
      refine .failed clear ((fails_iff read fine).2 ⟨path, g, e, output, generates, failed⟩)
        (s.failed quiet _ fun e fault => absurd fault (not_firstFault read e))
    | ok done =>
      obtain ⟨directory, name, mode, replaced⟩ := atomic.succeeds (by rw [written])
      rw [written] at replaced
      have goes : ¬ s.Fails files faults environment fs := by
        rw [fails_iff read fine]
        rintro ⟨path', g', e, output', generates', failed⟩
        cases output.symm.trans output'
        cases generates.unique generates'
        rw [written] at failed
        cases failed
      have quiet' : ∀ e ∈ events ++ [.wrote path.text], Event.level e ≠ .error := by
        intro e he
        rcases List.mem_append.1 he with before | last
        · exact quiet e before
        · rw [List.mem_singleton.1 last]
          nofun
      exact .succeeded clear goes
        ⟨rfl, s.success_errors quiet' _ _, modules, read, .written output generates replaced⟩

end

/-- A run with an input at fault fails. -/
theorem ends_unread (front : s.frontEnd ≠ .void) {e : InputError} (fault : FirstFault files s.inputs e) :
    s.Ends files faults environment fs ((Plan.done (s.failure [] e.message)).carryOut faults fs) := by
  obtain ⟨before, p, after, split, -, h⟩ := id fault
  have mem : p ∈ s.inputs := by simp [split]
  have clear : ¬ s.BreaksDown files := by
    rintro (void | ⟨all, -⟩)
    · exact front void
    · exact not_holds_iff.2 ⟨e, h⟩ (all p mem)
  refine .failed clear (.input mem h) (s.failed (by simp) e.message fun e' fault' => ⟨rfl, ?_⟩)
  cases (mapM_loadFile_error.2 fault).symm.trans (mapM_loadFile_error.2 fault')
  rfl

/-- A run that is asked for a header ends in one of the three ways. -/
theorem ends (legal : s.Legal) (inputs : s.inputs ≠ []) :
    s.Ends files faults environment fs ((s.plan files environment).carryOut faults fs) := by
  obtain void | ⟨name, known, front⟩ := legal.frontEnd
  · rw [Settings.plan, void]
    exact .broken (.inl void)
  obtain rfl : name = "json" := by simpa [FrontEnd.registry, Registry.names, Registry.ofEntries, FrontEnd.name] using known
  have selected : FrontEnd.select (some "json") = .ok .json := rfl
  have present : s.frontEnd ≠ .void := by simp [front]
  rw [Settings.plan, front]
  simp only [selected]
  cases loaded : s.inputs.mapM (loadFile files .json) with
  | error e => exact ends_unread present (mapM_loadFile_error.1 loaded)
  | ok modules =>
    have read := mapM_loadFile_ok.1 loaded
    have all : ∀ p ∈ s.inputs, ∃ m, Holds files p m := fun p hp => holds_of_read read hp
    obtain void | ⟨writer, known, chosen⟩ := legal.writer
    · have broken : s.planModules modules environment = .broken := by
        rw [Settings.planModules, void]
        cases s.output <;> rfl
      dsimp only
      rw [broken]
      exact .broken (.inr ⟨all, .inr (.inl void)⟩)
    cases output : s.output with
    | absent =>
      obtain ⟨first, rest, split⟩ := List.exists_cons_of_ne_nil inputs
      exact ends_printing read present chosen known output split
    | void =>
      have broken : s.planModules modules environment = .broken := by
        rw [Settings.planModules, output]
      dsimp only
      rw [broken]
      exact .broken (.inr ⟨all, .inl output⟩)
    | given path => exact ends_writing read present chosen known output

/-- A command line that asks for a header has inputs, and breaks down just if it comes to an option that was left void.
Otherwise it fails just if an input is at fault, the writer for C is given a guard or a guard prefix that is no
identifier, or a call fails with which the destination is written: then nothing is printed, no file has changed and one
error is told of, that of the first input at fault if there is one. If it does not fail, the text that is generated
from the modules, in the order of the inputs, is printed or in the destination, and nothing else has changed. -/
theorem run_outcome {arguments : List String} (accepted : readArguments arguments = .ok s)
    (runs : s.listWriters = false) (files : Files) (faults : AtomicWrite.Phase → Option SystemError)
    (environment : Option String) (fs : FileSystem) :
    let r := runUnder files faults arguments environment fs
    s.inputs ≠ [] ∧
      (r.1 = none ↔ s.BreaksDown files) ∧
      (r.1 = none → r.2 = fs) ∧
      ∀ o, r.1 = some o →
        (o.exit = 1 ↔ s.Fails files faults environment fs) ∧
        (s.Fails files faults environment fs → s.Failed files fs r.2 o) ∧
        (¬ s.Fails files faults environment fs → s.Succeeded files faults environment fs r.2 o) := by
  intro r
  obtain ⟨legal, needed⟩ := readArguments_legal accepted
  have ends : s.Ends files faults environment fs r := by
    have planned : plan arguments files environment = s.plan files environment := by
      simp [plan, accepted, runs]
    change s.Ends files faults environment fs ((plan arguments files environment).carryOut faults fs)
    rw [planned]
    exact ends legal (needed runs)
  refine ⟨needed runs, ?_⟩
  generalize r = r at ends
  cases ends with
  | broken h => exact ⟨iff_of_true rfl h, fun _ => rfl, nofun⟩
  | @failed o fs' clear fails h =>
    refine ⟨iff_of_false nofun clear, nofun, fun o' same => ?_⟩
    cases same
    exact ⟨iff_of_true h.exit fails, fun _ => h, fun fine => absurd fails fine⟩
  | @succeeded o fs' clear fine h =>
    refine ⟨iff_of_false nofun clear, nofun, fun o' same => ?_⟩
    cases same
    have zero : o.exit ≠ 1 := by rw [h.exit]; decide
    exact ⟨iff_of_false zero fine, fun fails => absurd fails fine, fun _ => h⟩

end

/-- A directory with one description, of no declarations. -/
def desk : FileSystem := ⟨[(["a.json"], .file 0o644 [0x7B, 0x7D])], [], 0o22⟩

theorem desk_holds : Holds desk.read ⟨.relative, ["a.json"]⟩ ⟨"a.json", []⟩ := by
  have plain : Json.Plain (.object []) := .object .nil nofun
  have blank : Json.Style.Blank .compact := trivial
  have parsed := plain.parse_text blank (by decide) "" nofun
  exact ⟨[0x7B, 0x7D], "{}", .object [], rfl, rfl, parsed, by decide +kernel⟩

/-- The settings for two inputs and nothing else. -/
def deskSettings : Settings := { Settings.initial with inputs := [⟨.relative, ["a.json"]⟩, ⟨.relative, ["b.json"]⟩] }

/-- Of two inputs the second is missing, so that the run fails with the error of this one. -/
theorem run_outcome_desk :
    readArguments ["a.json", "b.json"] = .ok deskSettings ∧ deskSettings.listWriters = false ∧
      run ["a.json", "b.json"] none desk =
        (some ⟨1, "", "ERROR: cannot read b.json: [Errno 2] No such file or directory: 'b.json'\n"⟩, desk) := by
  have accepted : readArguments ["a.json", "b.json"] = .ok deskSettings := by decide +kernel
  have missing : Fault desk.read ⟨.relative, ["b.json"]⟩ (.unreadable ⟨.relative, ["b.json"]⟩ .noEntry) :=
    .unreadable rfl
  have fault : FirstFault desk.read deskSettings.inputs (.unreadable ⟨.relative, ["b.json"]⟩ .noEntry) :=
    ⟨[⟨.relative, ["a.json"]⟩], _, [], rfl, fun q hq => ⟨_, List.mem_singleton.1 hq ▸ desk_holds⟩, missing⟩
  have fails : deskSettings.Fails desk.read (fun _ => none) none desk := .input (by decide) missing
  have clear : ¬ deskSettings.BreaksDown desk.read := by
    rintro (void | ⟨all, -⟩)
    · exact absurd void (by decide)
    · exact not_holds_iff.2 ⟨_, missing⟩ (all _ (by decide))
  obtain ⟨-, breaks, -, outcome⟩ := run_outcome accepted rfl desk.read (fun _ => none) none desk
  refine ⟨accepted, rfl, ?_⟩
  change runUnder desk.read (fun _ => none) ["a.json", "b.json"] none desk = _
  generalize runUnder desk.read (fun _ => none) ["a.json", "b.json"] none desk = r at *
  obtain ⟨ended, after⟩ := r
  cases ended with
  | none => exact absurd (breaks.1 rfl) clear
  | some o =>
    obtain ⟨exit, output, errors⟩ := o
    have failed := (outcome _ rfl).2.1 fails
    have line := failed.first _ fault
    cases failed.exit
    cases failed.output
    cases failed.unchanged
    cases line
    decide +kernel

/-- With a guard that was left void, the command line is accepted and asks for a header, but the run has no end. -/
theorem run_void_desk :
    ∃ s, readArguments ["--guard=--", "a.json"] = .ok s ∧ s.inputs = [⟨.relative, ["a.json"]⟩] ∧
      s.listWriters = false ∧
      ¬ ∃ o, (run ["--guard=--", "a.json"] none desk).1 = some o ∧ (o.exit = 0 ∨ o.exit = 1) := by
  let s : Settings := { Settings.initial with inputs := [⟨.relative, ["a.json"]⟩], guard := .void }
  have accepted : readArguments ["--guard=--", "a.json"] = .ok s := by decide +kernel
  have loaded : s.inputs.mapM (loadFile desk.read .json) = .ok [⟨"a.json", []⟩] :=
    mapM_loadFile_ok.2 (.cons desk_holds .nil)
  have broken : (run ["--guard=--", "a.json"] none desk).1 = none := by
    have selected : FrontEnd.select (some "json") = .ok .json := rfl
    have front : s.frontEnd = .given "json" := rfl
    have unusable : s.planModules [⟨"a.json", []⟩] none = .broken := rfl
    rw [run, runUnder, plan, accepted]
    dsimp only
    rw [if_neg (by decide), Settings.plan, front]
    simp only [selected, loaded, unusable, Plan.carryOut]
  refine ⟨s, accepted, rfl, rfl, ?_⟩
  rw [broken]
  rintro ⟨o, ended, -⟩
  cases ended

end CInterface.CommandLine
