/-!
# Decimal digits of every script

The general category of decimal digits, as of Unicode 14: runs of ten digits in ascending order, each given by
the code point of its zero. Whole numbers are written with the first ten.
-/

namespace CInterface.Text

def digitZeros : List Nat := [
  0x30, 0x660, 0x6F0, 0x7C0, 0x966, 0x9E6, 0xA66, 0xAE6, 0xB66, 0xBE6, 0xC66, 0xCE6, 0xD66, 0xDE6,
  0xE50, 0xED0, 0xF20, 0x1040, 0x1090, 0x17E0, 0x1810, 0x1946, 0x19D0, 0x1A80, 0x1A90, 0x1B50,
  0x1BB0, 0x1C40, 0x1C50, 0xA620, 0xA8D0, 0xA900, 0xA9D0, 0xA9F0, 0xAA50, 0xABF0, 0xFF10, 0x104A0,
  0x10D30, 0x11066, 0x110F0, 0x11136, 0x111D0, 0x112F0, 0x11450, 0x114D0, 0x11650, 0x116C0,
  0x11730, 0x118E0, 0x11950, 0x11C50, 0x11D50, 0x11DA0, 0x16A60, 0x16AC0, 0x16B50, 0x1D7CE,
  0x1D7D8, 0x1D7E2, 0x1D7EC, 0x1D7F6, 0x1E140, 0x1E2F0, 0x1E950, 0x1FBF0]

/-- Whether a character is a decimal digit of some script. -/
def isDecimalDigit (c : Char) : Bool :=
  digitZeros.any fun z => z ≤ c.toNat && c.toNat < z + 10

/-! ## Whole numbers -/

theorem toList_repr (n : Int) : n.repr.toList = (if 0 ≤ n then [] else ['-']) ++ Nat.toDigits 10 n.natAbs := by
  cases n <;> simp [Int.repr_eq_if]

theorem toDigits_ne_minus (n : Nat) (s : List Char) : Nat.toDigits 10 n ≠ '-' :: s := by
  intro same
  have minus : '-' ∈ Nat.toDigits 10 n := same ▸ List.mem_cons_self
  exact absurd (Nat.isDigit_of_mem_toDigits (by decide) (by decide) minus) (by decide)

theorem repr_inj {n n' : Int} (h : n.repr = n'.repr) : n = n' := by
  have texts := congrArg String.toList h
  rw [toList_repr, toList_repr] at texts
  have digits {k k' : Nat} (same : Nat.toDigits 10 k = Nat.toDigits 10 k') : k = k' := by
    have value (k : Nat) := Nat.ofDigitChars_toDigits (b := 10) (n := k) (by decide) (by decide)
    rw [← value k, same, value]
  split at texts <;> split at texts
  · have sizes := digits texts
    omega
  · exact absurd texts (toDigits_ne_minus _ _)
  · exact absurd texts.symm (toDigits_ne_minus _ _)
  · have sizes := digits (List.append_cancel_left texts)
    omega

theorem digit_or_minus_of_mem_repr {n : Int} {c : Char} (h : c ∈ n.repr.toList) : c.isDigit = true ∨ c = '-' := by
  rw [toList_repr, List.mem_append] at h
  obtain sign | digit := h
  · right
    split at sign
    · contradiction
    · exact List.mem_singleton.1 sign
  · exact .inl (Nat.isDigit_of_mem_toDigits (by decide) (by decide) digit)

end CInterface.Text
