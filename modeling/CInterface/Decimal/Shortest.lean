import CInterface.Decimal.Binary64

/-!
# Shortest decimal numerals

Of the decimal numerals that are rounded to a given number, the shortest are those with the fewest digits, and
of these the nearest to the number is taken. For every count of digits it is enough to look at the two points
of the decimal grid around the number. A layout then says which exponents are written positionally.
-/

namespace CInterface.Decimal

/-- The numbers that are rounded to a given one, as quotients by `den`: from `low` to `high`, the ends with
them if `closed`. The number itself is `value / den`. -/
structure Interval where
  low : Nat
  value : Nat
  high : Nat
  den : Nat
  closed : Bool

/-- The interval around `m * 2 ^ e`; below a power of two the neighbour is half as far away. -/
def Interval.around (m : Nat) (e : Int) : Interval :=
  let up := power 2 e
  let below := if m = power 2 52 ∧ -1074 < e then up else 2 * up
  ⟨4 * m * up - below, 4 * m * up, 4 * m * up + 2 * up, 4 * power 2 (-e), m % 2 = 0⟩

/-- The exponent of the largest power of ten that is at most the value. -/
def Interval.decimalExponent (i : Interval) : Int :=
  if i.den ≤ i.value then (Nat.toDigits 10 (i.value / i.den)).length - 1
  else -(Nat.toDigits 10 ((i.den - 1) / i.value)).length

/-- The multiple of `10 ^ scale` that lies in the interval and next to the value, if there is one. -/
def Interval.nearest? (i : Interval) (scale : Int) : Option Nat :=
  let up := power 10 (-scale)
  let unit := i.den * power 10 scale
  let inside (d : Nat) : Bool :=
    if i.closed then i.low * up ≤ d * unit && d * unit ≤ i.high * up
    else i.low * up < d * unit && d * unit < i.high * up
  let d := i.value * up / unit
  if inside d && inside (d + 1) then some (roundHalfEven (i.value * up) unit)
  else if inside d then some d
  else if inside (d + 1) then some (d + 1)
  else none

/-- The digits and the scale of the shortest numeral of `m * 2 ^ e`, for a positive `m`. -/
def shortest (m : Nat) (e : Int) : Nat × Int :=
  let i := Interval.around m e
  let k := i.decimalExponent
  let found := (List.range 17).findSome? fun (n : Nat) => (i.nearest? (k - n)).map (·, k - n)
  found.getD (i.value / i.den, 0)

/-- Digits without the zeros at their end, and how many zeros that were. -/
def dropZeros (digits : List Char) : List Char × Nat :=
  let zeros := digits.reverse.takeWhile (· = '0')
  (digits.take (digits.length - zeros.length), zeros.length)

/-- How numerals are laid out: positionally from the exponent `least` up to below `bound`. -/
structure Layout where
  least : Int
  bound : Int

/-- Digits with a point, for a first digit that counts `10 ^ x`. A whole number gets a zero after the point. -/
def positional (digits : List Char) (x : Int) : String :=
  if x < 0 then "0." ++ String.ofList (List.replicate (-x - 1).toNat '0' ++ digits)
  else
    let whole := x.toNat + 1
    let fraction := digits.drop whole
    String.ofList (digits.take whole ++ List.replicate (whole - digits.length) '0') ++ "."
      ++ (if fraction.isEmpty then "0" else String.ofList fraction)

/-- One digit before the point, and an exponent of two digits or more with its sign. -/
def scientific (digits : List Char) (x : Int) : String :=
  let fraction := digits.drop 1
  let exponent := toString x.natAbs
  String.ofList (digits.take 1) ++ (if fraction.isEmpty then "" else "." ++ String.ofList fraction)
    ++ (if x < 0 then "e-" else "e+") ++ (if exponent.length < 2 then "0" ++ exponent else exponent)

/-- The shortest numeral of a finite number, with its sign. -/
def Layout.finite (layout : Layout) (negative : Bool) (m : Nat) (e : Int) : String :=
  let (number, scale) := if m = 0 then (0, 0) else shortest m e
  let (digits, zeros) := if m = 0 then (['0'], 0) else dropZeros (Nat.toDigits 10 number)
  let x := digits.length - 1 + zeros + scale
  (if negative then "-" else "")
    ++ (if layout.least ≤ x ∧ x < layout.bound then positional digits x else scientific digits x)

end CInterface.Decimal
