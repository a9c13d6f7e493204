/-!
# Digits of whole numbers

A whole number has a text of its decimal digits, unless there are too many of them; the sign does not count. Such a
number is neither read from a text nor written into one.
-/

namespace CInterface.Decimal

/-- The most digits of a whole number in a text. -/
def maxDigits : Nat := 4300

def digitCount (n : Int) : Nat := (Nat.toDigits 10 n.natAbs).length

def limitMessage (detail : String) : String :=
  "Exceeds the limit (" ++ toString maxDigits ++ " digits) for integer string conversion" ++ detail
    ++ "; use sys.set_int_max_str_digits() to increase the limit"

end CInterface.Decimal
