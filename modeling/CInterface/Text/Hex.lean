/-!
# Hexadecimal numerals of fixed width
-/

namespace CInterface.Text

/-- The last `width` hexadecimal digits of a number in lower case, zeros in front. -/
def hex : (width : Nat) → Nat → List Char
  | 0, _ => []
  | width + 1, n => hex width (n / 16) ++ [Nat.digitChar (n % 16)]

def hexValue? (c : Char) : Option Nat :=
  let n := c.toNat
  if 48 ≤ n ∧ n ≤ 57 then some (n - 48)
  else if 97 ≤ n ∧ n ≤ 102 then some (n - 87)
  else if 65 ≤ n ∧ n ≤ 70 then some (n - 55)
  else none

/-- The number that a list of hexadecimal digits denotes, read after the digits of `high`. -/
def hexNumber? (high : Nat) : List Char → Option Nat
  | [] => some high
  | c :: cs => (hexValue? c).bind fun d => hexNumber? (16 * high + d) cs

theorem hexValue?_digitChar {n : Nat} (h : n < 16) : hexValue? n.digitChar = some n := by
  have each : ∀ d : Fin 16, hexValue? (Nat.digitChar d) = some d.val := by decide
  exact each ⟨n, h⟩

theorem hexNumber?_append (high : Nat) (s t : List Char) :
    hexNumber? high (s ++ t) = (hexNumber? high s).bind (hexNumber? · t) := by
  induction s generalizing high with
  | nil => rfl
  | cons c s ih => cases h : hexValue? c <;> simp [hexNumber?, h, ih]

theorem hexNumber?_hex {width n : Nat} (h : n < Nat.pow 16 width) : hexNumber? 0 (hex width n) = some n := by
  induction width generalizing n with
  | zero => simp_all [hex, hexNumber?]
  | succ width ih =>
    have low : n / 16 < Nat.pow 16 width := Nat.div_lt_of_lt_mul (by rwa [Nat.pow_eq, Nat.pow_succ'] at h)
    simp [hex, hexNumber?_append, ih low, hexNumber?, hexValue?_digitChar (Nat.mod_lt n (by decide)),
      Nat.div_add_mod]

end CInterface.Text
