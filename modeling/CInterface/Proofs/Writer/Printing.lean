import CInterface.Proofs.Except
import CInterface.Writer

/-!
# What is written

A writer fails if its indent stands for no style, or else if a number that it would write has too many digits, and for
no other reason. The writer for C writes the values of enumerations, and the one for JSON all numbers of a document.
-/

namespace CInterface

open Decimal (digitCount maxDigits)

theorem Header.text?_eq_some {guard text : String} {h : Header} :
    h.text? guard = some text ↔ (∀ n ∈ h.values, digitCount n ≤ maxDigits) ∧ h.text guard = text := by
  rw [text?, Option.ite_none_right_eq_some, Option.some.injEq]

theorem Header.text?_eq_none {guard : String} {h : Header} :
    h.text? guard = none ↔ ∃ n ∈ h.values, maxDigits < digitCount n := by
  simp [text?]

theorem Json.Value.text?_eq_some {style : Json.Style} {v : Json.Value} {text : String} :
    v.text? style = some text ↔ v.Sized ∧ v.text style = text := by
  rw [text?, Option.ite_none_right_eq_some, Option.some.injEq]

theorem Json.Value.text?_eq_none {style : Json.Style} {v : Json.Value} : v.text? style = none ↔ ¬ v.Sized := by
  simp [text?]

/-- There is room for the indent that is taken when none is given. -/
theorem Indent.exists_style_blanks_two [Memory] : ∃ style, (Indent.blanks 2).style = .ok style := by
  have room : (2 : Int) ≤ Memory.blanks := Int.ofNat_le.2 Memory.two_le_blanks
  rw [style, if_neg (by decide), if_neg (by omega)]
  exact ⟨_, rfl⟩

namespace Writer

variable {guard guardPrefix environment : Option String} {indent : Indent} {h : Header} {text : String}
  {e : OptionError}

theorem printed_ok {text? : Option String} : printed text? = .ok text ↔ text? = some text := by
  cases text? <;> simp [printed]

theorem printed_error {text? : Option String} : printed text? = .error e ↔ text? = none ∧ e = .oversized := by
  cases text? <;> simp [printed, eq_comm]

variable [Memory]

theorem write_c_ok : (c guard guardPrefix).write environment h = .ok text ↔
    (∀ n ∈ h.values, digitCount n ≤ maxDigits) ∧
      h.text (guard.getD (Guard.token h.target guardPrefix environment)) = text := by
  rw [write, printed_ok, Header.text?_eq_some]

theorem write_c_error : (c guard guardPrefix).write environment h = .error e ↔
    (∃ n ∈ h.values, maxDigits < digitCount n) ∧ e = .oversized := by
  rw [write, printed_error, Header.text?_eq_none]

theorem write_json_ok : (json indent).write environment h = .ok text ↔
    ∃ style, indent.style = .ok style ∧ h.document.Sized ∧ h.document.text style ++ "\n" = text := by
  simp only [write, except_bind_ok, printed_ok, Json.Value.text?_eq_some, pure, Except.pure, Except.ok.injEq, and_assoc,
    exists_and_left, exists_eq_left']

theorem write_json_error : (json indent).write environment h = .error e ↔
    indent.style = .error e ∨ (∃ style, indent.style = .ok style) ∧ ¬ h.document.Sized ∧ e = .oversized := by
  simp only [write, except_bind_error, printed_error, Json.Value.text?_eq_none, pure, Except.pure, reduceCtorEq,
    and_false, exists_false, or_false, exists_and_right]

end Writer

/-! ## A number with one digit too many -/

/-- A header with one number. -/
def Header.ofNumber (n : Int) : Header := ⟨"number.h", [], [⟨"Limits", [⟨"Most", some n⟩], none⟩], [], []⟩

theorem Header.mem_values_ofNumber (n : Int) : n ∈ (ofNumber n).values := by simp [values, ofNumber]

theorem lt_digitCount_power {k : Nat} (pos : 0 < k) : k < digitCount (Nat.pow 10 k) := by
  by_contra few
  have small := (Nat.length_toDigits_le_iff (by decide) pos).1 (Nat.not_lt.1 few)
  rw [Int.natAbs_natCast] at small
  exact Nat.lt_irrefl _ small

end CInterface
