import CInterface.CommandLine.Settings
import CInterface.Proofs.Except

/-!
# What a command line can ask for

However a command line is read, its front end and its writer are among the registered ones, unless the choice was left
void, and there is an input unless the writers are to be listed. Settings start like this, and each option keeps them
like this.
-/

namespace CInterface.CommandLine

/-- Left void, or one of some names. -/
def Choice.Among (names : List String) (c : Choice String) : Prop := c = .void ∨ ∃ name ∈ names, c = .given name

/-- Settings whose front end and writer can be chosen. -/
structure Settings.Legal (s : Settings) : Prop where
  frontEnd : s.frontEnd.Among FrontEnd.registry.names
  writer : s.writer.Among Writer.registry.names

variable {s settings settings' : Settings} {p p' : Progress}

theorem Settings.initial_legal : Settings.initial.Legal where
  frontEnd := .inr ⟨"json", by decide, rfl⟩
  writer := .inr ⟨"c", by decide, rfl⟩

theorem choose_among {option : Switch} {names : List String} {value : String} {c : Choice String}
    (h : choose option names value = .ok c) : c.Among names := by
  rw [choose] at h
  by_cases void : value = "--"
  · rw [Choice.ofValue, if_pos void] at h
    cases h
    exact .inl rfl
  · rw [Choice.ofValue, if_neg void] at h
    dsimp only at h
    split at h
    next mem =>
      cases h
      exact .inr ⟨value, mem, rfl⟩
    next => cases h

theorem Settings.Legal.apply (legal : settings.Legal) {option : Switch} {value : String}
    (h : settings.apply option value = .ok settings') : settings'.Legal := by
  cases option with
  | help => cases h
  | frontEnd =>
    obtain ⟨c, chosen, h⟩ := except_bind_ok.1 h
    cases h
    exact ⟨choose_among chosen, legal.writer⟩
  | writer =>
    obtain ⟨c, chosen, h⟩ := except_bind_ok.1 h
    cases h
    exact ⟨legal.frontEnd, choose_among chosen⟩
  | verbose =>
    rw [Settings.apply] at h
    split at h
    · cases h
    · cases h
      exact ⟨legal.frontEnd, legal.writer⟩
  | quiet =>
    rw [Settings.apply] at h
    split at h
    · cases h
    · cases h
      exact ⟨legal.frontEnd, legal.writer⟩
  | _ =>
    cases h
    exact ⟨legal.frontEnd, legal.writer⟩

theorem Settings.Legal.applyAll (legal : settings.Legal) {flags : List Switch}
    (h : CommandLine.applyAll settings flags = .ok settings') : settings'.Legal := by
  induction flags generalizing settings with
  | nil =>
    cases h
    exact legal
  | cons flag flags ih =>
    obtain ⟨next, first, rest⟩ := except_bind_ok.1 h
    exact ih (legal.apply first) rest

namespace Progress

theorem apply_legal (legal : p.settings.Legal) {flags : List Switch} {option : Switch} {value : String}
    (h : p.apply flags option value = .ok p') : p'.settings.Legal := by
  obtain ⟨settings, all, h⟩ := except_bind_ok.1 h
  obtain ⟨settings', last, h⟩ := except_bind_ok.1 h
  cases h
  exact (legal.applyAll all).apply last

theorem addBundle_legal (legal : p.settings.Legal) {b : Bundle} (h : p.addBundle b = .ok p') : p'.settings.Legal := by
  rw [addBundle] at h
  split at h
  · obtain ⟨settings, all, h⟩ := except_bind_ok.1 h
    cases h
    exact legal.applyAll all
  · exact apply_legal (p := p.endOperands) legal h
  · cases h
    exact legal

theorem addOperand_settings (p : Progress) (text : String) : (p.addOperand text).settings = p.settings := by
  rw [addOperand]
  split <;> rfl

/-- Reading a word keeps the settings legal. -/
theorem step_legal (legal : p.settings.Legal) {w : Word} (h : p.step w = .ok p') : p'.settings.Legal := by
  unfold step at h
  split at h
  · exact apply_legal legal h
  · cases h
  · cases h
    rwa [addOperand_settings]
  · cases h
    rwa [addOperand_settings]
  · cases h
    exact legal
  · obtain ⟨b, -, h⟩ := except_bind_ok.1 h
    exact addBundle_legal legal h
  · obtain ⟨b, -, h⟩ := except_bind_ok.1 h
    exact addBundle_legal legal h

/-- The end of a command line leaves the options as they are, and there is an input if one is needed. -/
theorem finish_legal (legal : p.settings.Legal) (h : p.finish = .ok s) :
    s.Legal ∧ (s.listWriters = false → s.inputs ≠ []) := by
  simp only [finish] at h
  split at h
  · cases h
  split at h
  · split at h
    · cases h
    next needed =>
      cases h
      exact ⟨⟨legal.frontEnd, legal.writer⟩, fun runs none => needed (by simp_all)⟩
  · cases h

end Progress

/-- The settings of a command line are legal, and there is an input if one is needed. -/
theorem readArguments_legal {arguments : List String} (h : readArguments arguments = .ok s) :
    s.Legal ∧ (s.listWriters = false → s.inputs ≠ []) := by
  obtain ⟨ws, -, h⟩ := except_bind_ok.1 h
  obtain ⟨p, read, h⟩ := except_bind_ok.1 h
  have legal : p.settings.Legal :=
    except_foldlM_keeps (fun _ _ _ legal => Progress.step_legal legal) Settings.initial_legal read
  exact Progress.finish_legal legal h

end CInterface.CommandLine
