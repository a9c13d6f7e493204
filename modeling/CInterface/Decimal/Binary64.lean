/-!
# Double precision numbers

A double precision number is a significand below `2 ^ 53` scaled by a power of two, an infinity, or no number.
Decimal numerals are rounded to the nearest one in exact integer arithmetic, a tie to the even significand.
-/

namespace CInterface.Decimal

inductive Binary64 where
  | finite (negative : Bool) (significand : Nat) (exponent : Int)
  | infinite (negative : Bool)
  | nan
  deriving DecidableEq, Repr

/-- `base ^ n`, and one for a negative exponent. -/
def power (base : Nat) (n : Int) : Nat := Nat.pow base n.toNat

/-- The integer nearest to a quotient, the even one of two. -/
def roundHalfEven (num den : Nat) : Nat :=
  let q := num / den
  let r := num % den
  if 2 * r < den ∨ (2 * r = den ∧ q % 2 = 0) then q else q + 1

/-- The exponent of the largest power of two that is at most `num / den`. -/
def binaryExponent (num den : Nat) : Int :=
  let guess : Int := num.log2 - den.log2
  if den * power 2 guess ≤ num * power 2 (-guess) then guess else guess - 1

namespace Binary64

def ofRatio (negative : Bool) (num den : Nat) : Binary64 :=
  let e := max (binaryExponent num den - 52) (-1074)
  let m := roundHalfEven (num * power 2 (-e)) (den * power 2 e)
  let (m, e) := if m = power 2 53 then (power 2 52, e + 1) else (m, e)
  if 971 < e then .infinite negative else .finite negative m e

/-- The nearest number to `digits * 10 ^ scale`. Magnitudes that no double precision number comes near are
told apart first, so that a far away scale costs nothing. -/
def ofDecimal (negative : Bool) (digits : Nat) (scale : Int) : Binary64 :=
  let magnitude : Int := (Nat.toDigits 10 digits).length + scale
  if digits = 0 ∨ magnitude < -330 then .finite negative 0 0
  else if 330 < magnitude then .infinite negative
  else ofRatio negative (digits * power 10 scale) (power 10 (-scale))

example : ofDecimal false 1 0 = .finite false (2 ^ 52) (-52) := by decide +kernel

example : ofDecimal true 5 (-324) = .finite true 1 (-1074) := by decide +kernel

end Binary64

end CInterface.Decimal
