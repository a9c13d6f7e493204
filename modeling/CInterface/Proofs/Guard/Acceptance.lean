import CInterface.Proofs.Except
import CInterface.Proofs.Guard.Derivation
import CInterface.Proofs.Header.TypeText
import CInterface.Proofs.Writer.Printing

/-!
# Guards that are accepted

The writer for C takes a guard and a guard prefix that are identifiers, and refuses all others but those that end in
one line feed. Its texts open with the directives of one guard exactly as long as no such line feed gets into them.
-/

namespace CInterface

open Text

namespace Writer

section

variable {guard guardPrefix : Option String} {value : String}

theorem ofGuard_guard (h : isIdentifierLine value = false) (guardPrefix : Option String) :
    ofGuard (some value) guardPrefix = .error (.guard value) := by
  simp [ofGuard, h, bind, Except.bind, throw, throwThe, MonadExceptOf.throw]

variable (fine : ∀ value, guard = some value → isIdentifierLine value = true)

include fine

theorem ofGuard_guardPrefix (h : isIdentifierLine value = false) :
    ofGuard guard (some value) = .error (.guardPrefix value) := by
  cases guard <;> simp_all [ofGuard, bind, Except.bind, throw, throwThe, MonadExceptOf.throw]

theorem ofGuard_ok (h : ∀ value, guardPrefix = some value → isIdentifierLine value = true) :
    ofGuard guard guardPrefix = .ok (.c guard guardPrefix) := by
  cases guard <;> cases guardPrefix <;> simp_all [ofGuard, pure, Except.pure]

end

variable {guard guardPrefix : Option String}

/-- An option that is given is all right, or it is the first that is not. -/
theorem ofGuard_cases (guard guardPrefix : Option String) :
    (∀ value, guard = some value ∨ guardPrefix = some value → isIdentifierLine value = true) ∧
        ofGuard guard guardPrefix = .ok (.c guard guardPrefix) ∨
      (∃ value, guard = some value ∧ isIdentifierLine value = false ∧
        ofGuard guard guardPrefix = .error (.guard value)) ∨
      ∃ value, (∀ value, guard = some value → isIdentifierLine value = true) ∧ guardPrefix = some value ∧
        isIdentifierLine value = false ∧ ofGuard guard guardPrefix = .error (.guardPrefix value) := by
  by_cases fine : ∀ value, guard = some value → isIdentifierLine value = true
  · by_cases fine' : ∀ value, guardPrefix = some value → isIdentifierLine value = true
    · exact .inl ⟨fun value given => given.elim (fine value) (fine' value), ofGuard_ok fine fine'⟩
    · simp only [not_forall, Bool.not_eq_true] at fine'
      obtain ⟨value, rfl, bad⟩ := fine'
      exact .inr (.inr ⟨value, fine, rfl, bad, ofGuard_guardPrefix fine bad⟩)
  · simp only [not_forall, Bool.not_eq_true] at fine
    obtain ⟨value, rfl, bad⟩ := fine
    exact .inr (.inl ⟨value, rfl, bad, ofGuard_guard bad guardPrefix⟩)

theorem ofGuard_eq_ok {w : Writer} : ofGuard guard guardPrefix = .ok w ↔
    w = .c guard guardPrefix ∧ ∀ value, guard = some value ∨ guardPrefix = some value → isIdentifierLine value = true := by
  obtain ⟨fine, ok⟩ | ⟨value, given, bad, error⟩ | ⟨value, -, given, bad, error⟩ := ofGuard_cases guard guardPrefix
  · rw [ok, Except.ok.injEq, eq_comm]
    exact (and_iff_left fine).symm
  · rw [error]
    refine iff_of_false nofun fun h => ?_
    rw [h.2 value (.inl given)] at bad
    contradiction
  · rw [error]
    refine iff_of_false nofun fun h => ?_
    rw [h.2 value (.inr given)] at bad
    contradiction

theorem ofGuard_error {e : OptionError} (h : ofGuard guard guardPrefix = .error e) :
    ∃ value, isIdentifierLine value = false ∧ (guard = some value ∧ e = .guard value ∨
      (∀ value, guard = some value → isIdentifierLine value = true) ∧ guardPrefix = some value ∧
        e = .guardPrefix value) := by
  obtain ⟨-, ok⟩ | ⟨value, given, bad, error⟩ | ⟨value, fine, given, bad, error⟩ := ofGuard_cases guard guardPrefix
  · rw [ok] at h
    contradiction
  · rw [error] at h
    exact ⟨value, bad, .inl ⟨given, (Except.error.inj h).symm⟩⟩
  · rw [error] at h
    exact ⟨value, bad, .inr ⟨fine, given, (Except.error.inj h).symm⟩⟩

end Writer

/-! ## The directives that open a text -/

/-- The first two lines of a text are those that open an include guard, which is an identifier. -/
def OpensGuard (text : String) : Prop :=
  ∃ name rest, isIdentifier name = true ∧
    text = "#ifndef " ++ name ++ "\n" ++ "#define " ++ name ++ "\n" ++ rest

namespace Header

variable {guard name : String} {h : Header}

theorem text_starts (guard : String) (h : Header) :
    ∃ rest, h.text guard = "#ifndef " ++ guard ++ "\n" ++ "#define " ++ guard ++ "\n" ++ rest := by
  obtain ⟨lines, shape⟩ : ∃ lines, h.lines guard = ("#ifndef " ++ guard) :: ("#define " ++ guard) :: "" :: lines :=
    ⟨_, rfl⟩
  refine ⟨"\n".intercalate ("" :: lines) ++ "\n", ?_⟩
  rw [text, shape, String.intercalate_cons_cons, String.intercalate_cons_cons]
  simp only [String.append_assoc]

theorem opensGuard_text (identifier : isIdentifier guard = true) : OpensGuard (h.text guard) := by
  obtain ⟨rest, starts⟩ := text_starts guard h
  exact ⟨guard, rest, identifier, starts⟩

/-- A line feed behind an identifier ends the first line, and no word makes the second one a directive. -/
theorem not_opensGuard_text {word : String} (identifier : isIdentifier name = true) (isWord : IsWord word) :
    ¬ OpensGuard (h.text (name ++ "\n" ++ word)) := by
  rintro ⟨name', rest', identifier', opens⟩
  obtain ⟨rest, starts⟩ := text_starts (name ++ "\n" ++ word) h
  rw [starts, ← String.toList_inj] at opens
  have lines : name.toList ++ '\n' :: (word.toList ++ '\n' :: ("#define ".toList ++ name.toList ++
        '\n' :: (word.toList ++ '\n' :: rest.toList)))
      = name'.toList ++ '\n' :: ("#define ".toList ++ name'.toList ++ '\n' :: rest'.toList) := by
    simpa using opens
  have plain {s : String} (identifier : isIdentifier s = true) : '\n' ∉ s.toList :=
    (isWord_of_isIdentifier identifier).not_mem (by decide)
  obtain ⟨-, second⟩ := split_first (plain identifier) (plain identifier') lines
  cases shape : word.toList with
  | nil => simp [shape] at second
  | cons c cs =>
    have hash : c = '#' := by simpa [shape] using congrArg List.head? second
    have part := isWord c (by simp [shape])
    rw [hash] at part
    exact absurd part (by decide)

end Header

namespace Writer

variable {guard guardPrefix : Option String}

/-- A text that the check of an option accepts. -/
def Accepted (value : String) : Prop :=
  isIdentifier value = true ∨ ∃ name, isIdentifier name = true ∧ value = name ++ "\n"

/-- What the check of a guard and a guard prefix is there for: it lets identifiers through and refuses all others by
name, so that every text that is written opens with the directives of a guard. -/
structure Checked [Memory] (guard guardPrefix : Option String) : Prop where
  accepts : Yields (ofGuard guard guardPrefix) ↔
    ∀ value, guard = some value ∨ guardPrefix = some value → isIdentifier value = true
  refuses : ∀ e, ofGuard guard guardPrefix = .error e → ∃ value, isIdentifier value = false ∧
    (guard = some value ∧ e = .guard value ∨ guardPrefix = some value ∧ e = .guardPrefix value)
  opens : ∀ w, ofGuard guard guardPrefix = .ok w → ∀ environment h text, w.write environment h = .ok text →
    OpensGuard text

theorem isIdentifierLine_iff_accepted {value : String} : isIdentifierLine value = true ↔ Accepted value :=
  isIdentifierLine_iff

theorem not_isIdentifier_line (name : String) : ¬ isIdentifier (name ++ "\n") = true := by
  intro h
  exact (isWord_of_isIdentifier h).not_mem (c := '\n') (by decide) (by simp)

/-- The guard of a text is an identifier exactly if the option that it is made from is one. -/
theorem opensGuard_iff (environment : Option String) (h : Header)
    (accepted : ∀ value, guard = some value ∨ guardPrefix = some value → Accepted value) :
    OpensGuard (h.text (guard.getD (Guard.token h.target guardPrefix environment))) ↔
      ∀ value, guard.or guardPrefix = some value → isIdentifier value = true := by
  cases guard with
  | some value =>
    simp only [Option.getD_some, Option.some_or, Option.some.injEq, forall_eq']
    obtain identifier | ⟨name, identifier, rfl⟩ := accepted value (.inl rfl)
    · exact iff_of_true (Header.opensGuard_text identifier) identifier
    · have line : ¬ OpensGuard (h.text (name ++ "\n" ++ "")) := Header.not_opensGuard_text identifier nofun
      rw [String.append_empty] at line
      exact iff_of_false line (not_isIdentifier_line name)
  | none =>
    rw [Option.getD_none, Option.none_or]
    cases guardPrefix with
    | none => exact iff_of_true (Header.opensGuard_text (Guard.isIdentifier_token _ nofun)) nofun
    | some value =>
      simp only [Option.some.injEq, forall_eq']
      obtain identifier | ⟨name, identifier, rfl⟩ := accepted value (.inr rfl)
      · refine iff_of_true (Header.opensGuard_text (Guard.isIdentifier_token _ ?_)) identifier
        rintro _ ⟨⟩
        exact identifier
      · have word : IsWord ("_" ++ Guard.stem h.target ++ "_h") :=
          isWord_append.2 ⟨isWord_append.2 ⟨isWord_of_isIdentifier (by decide), (Guard.hasStem_stem _).isWord⟩,
            isWord_of_isIdentifier (by decide)⟩
        have token : Guard.token h.target (some (name ++ "\n")) environment =
            name ++ "\n" ++ ("_" ++ Guard.stem h.target ++ "_h") := by
          simp only [Guard.token, Guard.prefixInForce, Option.getD_some, String.append_assoc]
        rw [token]
        exact iff_of_false (Header.not_opensGuard_text identifier word) (not_isIdentifier_line name)

theorem ofGuard_ok_iff {w : Writer} : ofGuard guard guardPrefix = .ok w ↔
    w = .c guard guardPrefix ∧ ∀ value, guard = some value ∨ guardPrefix = some value → Accepted value := by
  simp only [ofGuard_eq_ok, isIdentifierLine_iff_accepted]

/-- The guards and guard prefixes that are accepted are identifiers, each with at most one line feed behind it, and the
first one that is not is refused. A text that is written opens with the directives of a guard exactly if the option
that its guard is made from has no line feed. So the check does what it is there for unless it accepts an option with a
line feed. -/
theorem checked_iff [Memory] (guard guardPrefix : Option String) :
    (∀ w, ofGuard guard guardPrefix = .ok w ↔ w = .c guard guardPrefix ∧
        ∀ value, guard = some value ∨ guardPrefix = some value → Accepted value) ∧
      (∀ e, ofGuard guard guardPrefix = .error e → ∃ value, ¬ Accepted value ∧
        (guard = some value ∧ e = .guard value ∨
          (∀ value, guard = some value → Accepted value) ∧ guardPrefix = some value ∧ e = .guardPrefix value)) ∧
      (∀ w, ofGuard guard guardPrefix = .ok w → ∀ environment h text, w.write environment h = .ok text →
        (OpensGuard text ↔ ∀ value, guard.or guardPrefix = some value → isIdentifier value = true)) ∧
      (Checked guard guardPrefix ↔ ¬ (Yields (ofGuard guard guardPrefix) ∧
        ∃ name, guard = some (name ++ "\n") ∨ guardPrefix = some (name ++ "\n"))) := by
  have opens : ∀ w, ofGuard guard guardPrefix = .ok w → ∀ environment h text, w.write environment h = .ok text →
      (OpensGuard text ↔ ∀ value, guard.or guardPrefix = some value → isIdentifier value = true) := by
    intro w ok environment h text written
    obtain ⟨rfl, accepted⟩ := ofGuard_ok_iff.1 ok
    rw [← (write_c_ok.1 written).2]
    exact opensGuard_iff environment h accepted
  refine ⟨fun w => ofGuard_ok_iff, fun e error => ?_, opens, ?_⟩
  · obtain ⟨value, bad, given⟩ := ofGuard_error error
    simp only [isIdentifierLine_iff_accepted] at given
    refine ⟨value, fun accepted => ?_, given⟩
    rw [isIdentifierLine_iff_accepted.2 accepted] at bad
    contradiction
  · constructor
    · rintro checked ⟨yields, name, line⟩
      exact not_isIdentifier_line name (checked.accepts.1 yields _ line)
    · intro plain
      have identifiers (yields : Yields (ofGuard guard guardPrefix)) (value : String)
          (given : guard = some value ∨ guardPrefix = some value) : isIdentifier value = true := by
        obtain ⟨w, ok⟩ := id yields
        obtain identifier | ⟨name, -, rfl⟩ := (ofGuard_ok_iff.1 ok).2 value given
        · exact identifier
        · exact absurd ⟨yields, name, given⟩ plain
      refine ⟨⟨identifiers, fun all => ⟨_, ofGuard_ok_iff.2 ⟨rfl, fun value given => .inl (all value given)⟩⟩⟩, ?_, ?_⟩
      · intro e error
        obtain ⟨value, bad, given⟩ := ofGuard_error error
        refine ⟨value, ?_, given.imp_right And.right⟩
        by_contra identifier
        rw [isIdentifierLine_iff.2 (.inl (by simpa using identifier))] at bad
        contradiction
      · intro w ok environment h text written
        refine (opens w ok environment h text written).2 fun value first => identifiers ⟨w, ok⟩ value ?_
        exact (Option.or_eq_some_iff.1 first).imp_right And.right

/-- A guard with a line feed is accepted, and then the second line of the text is empty. -/
theorem not_checked_line : ¬ Checked (some "LIB_H\n") none := by
  intro checked
  have accepted : ofGuard (some "LIB_H\n") none = .ok (.c (some "LIB_H\n") none) :=
    ofGuard_ok (by rintro _ ⟨⟩; decide) nofun
  exact not_isIdentifier_line "LIB_H" (checked.accepts.1 ⟨_, accepted⟩ _ (.inl rfl))

end Writer

end CInterface
