import CInterface.CommandLine.Plan
import CInterface.Proofs.Except

/-!
# Inputs

An input holds a module if it can be read, is UTF-8, is JSON and describes one; otherwise there is one fault, the first
of these that fails. Inputs are read in the order of the arguments, up to the first one at fault.
-/

namespace CInterface

open Source

namespace CommandLine

variable {files : Files} {p : FilePath} {m : Module}

/-- A text as it is read from a file. -/
def asRead (text : String) : String := String.ofList (Text.normalizeNewlines text.toList)

/-- A file can be read, is UTF-8, is JSON and describes a module. -/
def Holds (files : Files) (p : FilePath) (m : Module) : Prop :=
  ∃ octets text v, files p = .ok octets ∧ Text.decode octets = .ok text ∧ Json.parse (asRead text) = .ok v ∧
    Description.readModule p.text v = .ok m

/-- What keeps a file from holding a module. -/
inductive Fault (files : Files) (p : FilePath) : InputError → Prop
  | unreadable {e : SystemError} (h : files p = .error e) : Fault files p (.unreadable p e)
  | undecodable {octets : List UInt8} {f : Text.DecodeFault} (read : files p = .ok octets)
      (h : Text.decode octets = .error f) : Fault files p (.undecodable p f)
  | json {octets : List UInt8} {text : String} {e : Json.ReadError} (read : files p = .ok octets)
      (decoded : Text.decode octets = .ok text) (h : Json.parse (asRead text) = .error e) :
      Fault files p (.invalid p (.json e))
  | description {octets : List UInt8} {text : String} {v : Json.Value} {e : Description.Error}
      (read : files p = .ok octets) (decoded : Text.decode octets = .ok text) (parsed : Json.parse (asRead text) = .ok v)
      (h : Description.readModule p.text v = .error e) : Fault files p (.invalid p (.description e))

theorem loadFile_ok : loadFile files .json p = .ok m ↔ Holds files p m := by
  simp only [loadFile, FrontEnd.load, Description.load, except_bind_ok, except_mapError_ok, Holds, asRead]
  constructor
  · rintro ⟨octets, read, text, decoded, v, parsed, h⟩
    exact ⟨octets, text, v, read, decoded, parsed, h⟩
  · rintro ⟨octets, text, v, read, decoded, parsed, h⟩
    exact ⟨octets, read, text, decoded, v, parsed, h⟩

theorem loadFile_error {e : InputError} : loadFile files .json p = .error e ↔ Fault files p e := by
  simp only [loadFile, FrontEnd.load, Description.load, except_bind_error, except_mapError_error, except_mapError_ok]
  constructor
  · rintro (⟨_, h, rfl⟩ | ⟨octets, read, ⟨_, h, rfl⟩ | ⟨text, decoded, cause, h, rfl⟩⟩)
    · exact .unreadable h
    · exact .undecodable read h
    · obtain ⟨_, h, rfl⟩ | ⟨v, parsed, _, h, rfl⟩ := h
      · exact .json read decoded h
      · exact .description read decoded parsed h
  · intro fault
    cases fault with
    | unreadable h => exact .inl ⟨_, h, rfl⟩
    | undecodable read h => exact .inr ⟨_, read, .inl ⟨_, h, rfl⟩⟩
    | json read decoded h => exact .inr ⟨_, read, .inr ⟨_, decoded, _, .inl ⟨_, h, rfl⟩, rfl⟩⟩
    | description read decoded parsed h =>
      exact .inr ⟨_, read, .inr ⟨_, decoded, _, .inr ⟨_, parsed, _, h, rfl⟩, rfl⟩⟩

/-- A file holds a module or is at fault. -/
theorem not_holds_iff : (¬ ∃ m, Holds files p m) ↔ ∃ e, Fault files p e := by
  simp only [← loadFile_ok, ← loadFile_error]
  cases loadFile files .json p <;> simp

/-- The first input that is at fault, in the order of the arguments, is so with a given error. -/
def FirstFault (files : Files) (inputs : List FilePath) (e : InputError) : Prop :=
  ∃ before p after, inputs = before ++ p :: after ∧ (∀ q ∈ before, ∃ m, Holds files q m) ∧ Fault files p e

theorem mapM_loadFile_ok {inputs : List FilePath} {modules : List Module} :
    inputs.mapM (loadFile files .json) = .ok modules ↔ List.Forall₂ (Holds files) inputs modules := by
  simp only [except_mapM_ok, loadFile_ok]

theorem mapM_loadFile_error {inputs : List FilePath} {e : InputError} :
    inputs.mapM (loadFile files .json) = .error e ↔ FirstFault files inputs e := by
  simp only [except_mapM_error, Yields, loadFile_ok, loadFile_error, FirstFault]

end CommandLine

end CInterface
