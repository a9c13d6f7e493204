import CInterface.CommandLine.Plan
import CInterface.Proofs.Assembly.Numbers
import CInterface.Proofs.CommandLine.Inputs
import CInterface.Proofs.CommandLine.Reading
import CInterface.Proofs.Description.Numbers
import CInterface.Proofs.Guard.Acceptance
import CInterface.Proofs.Json.IntegerSize

/-!
# Generating as a command line asks for

A command line sets up the writer for C by a guard and a guard prefix, each of which may be left void or be no
identifier; the guard is looked at first. Nothing else can keep a generation from its text, since no number that has
been read has too many digits to be written. What happens meanwhile is told by the stages before the command, which
know of no errors.
-/

namespace CInterface

open Decimal (digitCount maxDigits)
open Source

/-- Only a command tells of errors. -/
theorem Event.level_ne_error {e : Event} (h : e.stage ≠ .command) : e.level ≠ .error := by
  cases e with
  | failed message => exact absurd rfl h
  | _ => nofun

theorem Assembly.events_stage {ds : List Declaration} (target : String) {e : Event}
    (h : e ∈ (Assembly.of ds target).events) : e.stage ≠ .command := by
  simp only [events_parts, List.mem_append, List.mem_flatMap, List.mem_map, declarationEvents] at h
  rcases h with (selected | ⟨d, -, resolved | ⟨g, -, rfl⟩⟩) | ⟨g, -, rfl⟩
  · simp [Selection.events_stage selected]
  · simp [Scope.declarationEvents_stage resolved]
  · simp [Event.stage]
  · simp [Event.stage]

theorem Guard.events_stage {given environment : Option String} {e : Event} (h : e ∈ Guard.events given environment) :
    e.stage = .guard := by
  rw [Guard.events] at h
  split at h
  · cases h
  · cases environment with
    | none => cases h
    | some value =>
      rw [Guard.environmentEvents] at h
      split at h
      · cases h
      · exact List.mem_singleton.1 h ▸ rfl

theorem Writer.events_stage {w : Writer} {environment : Option String} {e : Event} (h : e ∈ w.events environment) :
    e.stage = .guard := by
  unfold Writer.events at h
  split at h
  · exact Guard.events_stage h
  · cases h

/-- While a text is generated, no error is told of. -/
theorem generate_quiet [Memory] {modules : List Module} {target : String} {writer environment : Option String}
    {options : Json.Members} {e : Event} (h : e ∈ (generate modules target writer options environment).1) :
    e.level ≠ .error := by
  refine Event.level_ne_error ?_
  unfold generate at h
  split at h
  · cases h
  · dsimp only at h
    split at h
    · exact Assembly.events_stage target h
    · split at h
      · rcases List.mem_append.1 h with assembled | set
        · exact Assembly.events_stage target assembled
        · simp [Writer.events_stage set]
      · rcases List.mem_append.1 h with before | last
        · rcases List.mem_append.1 before with assembled | set
          · exact Assembly.events_stage target assembled
          · simp [Writer.events_stage set]
        · rw [List.mem_singleton.1 last]
          nofun

namespace CommandLine

/-- Given, but no identifier. -/
def Choice.Rejected (c : Choice String) : Prop := ∃ value, c = .given value ∧ Text.isIdentifierLine value = false

/-- The writer for C comes to an option that was left void. A guard that is rejected keeps it from its prefix. -/
def Settings.ReachesVoid (s : Settings) : Prop :=
  s.writer = .given Format.c.name ∧ (s.guard = .void ∨ ¬ s.guard.Rejected ∧ s.guardPrefix = .void)

/-- The writer for C is given a guard or a guard prefix that is no identifier. -/
def Settings.Refused (s : Settings) : Prop :=
  s.writer = .given Format.c.name ∧ (s.guard.Rejected ∨ s.guardPrefix.Rejected)

/-- What setting up a writer comes to, or whatever depends on nothing else. -/
inductive Settles {α : Type} (s : Settings) : Except WriterError α → Prop
  | void {e : WriterError} (reached : s.ReachesVoid) (silent : e.message? = none) : Settles s (.error e)
  | refused {e : WriterError} {message : String} (clear : ¬ s.ReachesVoid) (refused : s.Refused)
      (told : e.message? = some message) : Settles s (.error e)
  | done {a : α} (clear : ¬ s.ReachesVoid) (fine : ¬ s.Refused) : Settles s (.ok a)

variable {s : Settings} {writer : String}

/-- The text of an option for the writer. -/
def Choice.text? (name : String) : Choice String → Except OptionError (Option String)
  | .absent => .ok none
  | .void => .error (.unusable name)
  | .given value => .ok (some value)

theorem select_c (guard guardPrefix : Choice String) :
    Writer.select (some "c") (guard.member "guard" ++ guardPrefix.member "guard_prefix") =
      Except.mapError WriterError.option (do
        let g ← guard.text? "guard"
        discard (Writer.ofGuard g none)
        Writer.ofGuard g (← guardPrefix.text? "guard_prefix")) := by
  cases guard <;> cases guardPrefix <;> rfl

theorem select_json : Writer.select (some "json") [] = .ok (.json (.blanks 2)) := rfl

/-- An option for the writer that is all right has a text, an identifier, unless it is absent. -/
theorem Choice.text?_eq_ok {c : Choice String} (name : String) (present : c ≠ .void) (fine : ¬ c.Rejected) :
    ∃ text, c.text? name = .ok text ∧ ∀ value, text = some value → Text.isIdentifierLine value = true := by
  cases c with
  | absent => exact ⟨none, rfl, nofun⟩
  | void => exact absurd rfl present
  | given value =>
    refine ⟨some value, rfl, fun same h => ?_⟩
    cases h
    by_contra rejected
    exact fine ⟨_, rfl, Bool.eq_false_iff.2 rejected⟩

theorem mem_names : writer ∈ Writer.registry.names ↔ writer = "c" ∨ writer = "json" := by
  simp [Writer.registry, Registry.names, Registry.ofEntries, Format.name]

theorem options_c (chosen : s.writer = .given "c") :
    s.options = s.guard.member "guard" ++ s.guardPrefix.member "guard_prefix" := if_pos chosen

theorem not_c (chosen : s.writer = .given "json") : ¬ s.writer = .given Format.c.name := by
  rw [chosen]
  decide

theorem options_json (chosen : s.writer = .given "json") : s.options = [] := if_neg (not_c chosen)

/-- With a guard that is all right, what setting up the writer for C comes to is up to the prefix. -/
theorem guardPrefix_settles (chosen : s.writer = .given "c") (present : s.guard ≠ .void) (accepted : ¬ s.guard.Rejected)
    {guard : Option String} (fine : ∀ value, guard = some value → Text.isIdentifierLine value = true) :
    Settles s (Except.mapError WriterError.option (do Writer.ofGuard guard (← s.guardPrefix.text? "guard_prefix"))) := by
  by_cases void : s.guardPrefix = .void
  · rw [void]
    exact .void ⟨chosen, .inr ⟨accepted, void⟩⟩ rfl
  have clear : ¬ s.ReachesVoid := fun h => h.2.elim present fun h => void h.2
  by_cases rejected : s.guardPrefix.Rejected
  · obtain ⟨value, given, bad⟩ := id rejected
    rw [given, Choice.text?, except_ok_bind, Writer.ofGuard_guardPrefix fine bad]
    exact .refused clear ⟨chosen, .inr rejected⟩ rfl
  obtain ⟨guardPrefix, text, fine'⟩ := Choice.text?_eq_ok "guard_prefix" void rejected
  rw [text, except_ok_bind, Writer.ofGuard_ok fine fine']
  exact .done clear fun h => h.2.elim accepted rejected

/-- Setting up the writer fails for an option that is void or no identifier, and for no other reason. -/
theorem select_settles (chosen : s.writer = .given writer) (known : writer ∈ Writer.registry.names) :
    Settles s (Writer.select (some writer) s.options) := by
  obtain rfl | rfl := mem_names.1 known
  · rw [options_c chosen, select_c]
    by_cases void : s.guard = .void
    · rw [void]
      exact .void ⟨chosen, .inl void⟩ rfl
    by_cases rejected : s.guard.Rejected
    · have clear : ¬ s.ReachesVoid := fun h => h.2.elim void fun h => h.1 rejected
      obtain ⟨value, given, bad⟩ := id rejected
      rw [given, Choice.text?, except_ok_bind, Writer.ofGuard_guard bad]
      exact .refused clear ⟨chosen, .inl rejected⟩ rfl
    obtain ⟨guard, text, fine⟩ := Choice.text?_eq_ok "guard" void rejected
    have first : discard (Writer.ofGuard guard none) = .ok () := by
      rw [Writer.ofGuard_ok fine (by simp)]
      rfl
    rw [text, except_ok_bind, first, except_ok_bind]
    exact guardPrefix_settles chosen void rejected fine
  · rw [options_json chosen, select_json]
    exact .done (fun h => not_c chosen h.1) fun h => not_c chosen h.1

/-- A writer that a command line sets up writes every header without long numbers. -/
theorem select_writes [Memory] (chosen : s.writer = .given writer) (known : writer ∈ Writer.registry.names) {w : Writer}
    (h : Writer.select (some writer) s.options = .ok w) (environment : Option String) {header : Header}
    (sized : header.document.Sized) : Yields (w.write environment header) := by
  obtain rfl | rfl := mem_names.1 known
  · rw [options_c chosen, select_c, except_mapError_ok, except_bind_ok] at h
    obtain ⟨guard, -, h⟩ := h
    obtain ⟨_, -, h⟩ := except_bind_ok.1 h
    obtain ⟨guardPrefix, -, h⟩ := except_bind_ok.1 h
    rw [(Writer.ofGuard_eq_ok.1 h).1]
    exact ⟨_, Writer.write_c_ok.2 ⟨fun n hn => sized n (Header.mem_integers_of_mem_values hn), rfl⟩⟩
  · rw [options_json chosen, select_json] at h
    cases h
    obtain ⟨style, fits⟩ := Indent.exists_style_blanks_two
    exact ⟨_, Writer.write_json_ok.2 ⟨style, fits, sized, rfl⟩⟩

theorem options_free (s : Settings) : reservedOption? ["modules", "target", "writer"] s.options = none := by
  rw [Settings.options]
  split
  · cases s.guard <;> cases s.guardPrefix <;> rfl
  · rfl

/-- No number of a module that a file holds is too long to be written. -/
theorem Holds.sized {files : Files} {p : FilePath} {m : Module} (h : Holds files p m) {d : Declaration}
    (hd : d ∈ m.declarations) : ∀ n ∈ d.numbers, digitCount n ≤ maxDigits := by
  obtain ⟨octets, text, v, -, -, parsed, read⟩ := h
  exact fun n hn => Json.parse_sized parsed n (Description.numbers_subset_of_readModule read hd hn)

/-- A generation that a command line asks for, from modules in files, comes to what setting up its writer comes to. -/
theorem generate_settles [Memory] (chosen : s.writer = .given writer) (known : writer ∈ Writer.registry.names)
    {files : Files} {modules : List Module} (read : List.Forall₂ (Holds files) s.inputs modules) (target : String)
    (environment : Option String) :
    Settles s (generate modules target (some writer) s.options environment).2 := by
  have settles := select_settles chosen known
  simp only [generate, options_free s]
  cases selected : Writer.select (some writer) s.options with
  | error e =>
    rw [selected] at settles
    cases settles with
    | void reached silent => exact .void reached silent
    | refused clear refused told => exact .refused clear refused told
  | ok w =>
    rw [selected] at settles
    have sized : (Assembly.of (modules.flatMap (·.declarations)) target).header.document.Sized := by
      intro n hn
      obtain ⟨d, hd, told⟩ := Assembly.exists_declaration_of_mem_integers hn
      obtain ⟨m, hm, hd⟩ := List.mem_flatMap.1 hd
      obtain ⟨p, -, holds⟩ := forall₂_mem_right read hm
      exact holds.sized hd n told
    obtain ⟨text, written⟩ := select_writes chosen known selected environment sized
    cases settles with
    | done clear fine =>
      simp only [written]
      exact .done clear fine

end CommandLine

end CInterface
