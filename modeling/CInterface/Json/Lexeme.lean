import CInterface.Json.Value
import CInterface.Text.Hex

/-!
# Lexemes of JSON

The smallest parts of a JSON text. A lexeme is read from its first character on and takes as much as it can:
`12abc` starts with the number twelve. Where a string is broken the fault points at the character to blame,
given as the text from there on.
-/

namespace CInterface.Json

/-- What is wrong with a text, apart from where. -/
inductive Cause where
  | value
  | name
  | colon
  | comma
  | extra
  | unterminated
  | control
  | escape
  | codeEscape
  | byteOrderMark
  deriving DecidableEq, Repr

def Cause.message : Cause → String
  | .value => "Expecting value"
  | .name => "Expecting property name enclosed in double quotes"
  | .colon => "Expecting ':' delimiter"
  | .comma => "Expecting ',' delimiter"
  | .extra => "Extra data"
  | .unterminated => "Unterminated string starting at"
  | .control => "Invalid control character at"
  | .escape => "Invalid \\escape"
  | .codeEscape => "Invalid \\uXXXX escape"
  | .byteOrderMark => "Unexpected UTF-8 BOM (decode using utf-8-sig)"

/-- A fault of a text: a cause with the text from the character to blame on, or a whole number with more
digits than are read. -/
inductive Fault where
  | syntactic (cause : Cause) (rest : List Char)
  | oversized (digits : Nat)
  deriving DecidableEq, Repr

inductive Lexeme where
  | openArray
  | closeArray
  | openObject
  | closeObject
  | colon
  | comma
  | text (s : String)
  | scalar (v : Value)
  | brokenText (f : Fault)
  | brokenNumber (f : Fault)
  | unknown
  | endOfText

def letterEscape? : Char → Option Char
  | '"' => some '"'
  | '\\' => some '\\'
  | '/' => some '/'
  | 'b' => some '\x08'
  | 'f' => some '\x0c'
  | 'n' => some '\n'
  | 'r' => some '\r'
  | 't' => some '\t'
  | _ => none

/-- Four hexadecimal digits that are not the end of the text, as a number. -/
def codeUnit? (a b c d : Char) (rest : List Char) : Option Nat :=
  if rest.isEmpty then none else Text.hexNumber? 0 [a, b, c, d]

def prepend (unit : Nat) : Except Fault (List Nat × List Char) → Except Fault (List Nat × List Char)
  | .ok (units, rest) => .ok (unit :: units, rest)
  | .error f => .error f

private theorem prepend_ok {unit : Nat} {x : Except Fault (List Nat × List Char)} {r : List Nat × List Char}
    (h : prepend unit x = .ok r) : ∃ units, x = .ok (units, r.2) := by
  cases x with
  | ok p => cases h; exact ⟨p.1, rfl⟩
  | error f => cases h

/-- The code units of a string and the text after its closing quote. `opening` is the text from the opening
quote on. Characters beyond the first plane stay one unit. -/
def stringUnits (opening : List Char) : List Char → Except Fault (List Nat × List Char)
  | [] => .error (.syntactic .unterminated opening)
  | c :: rest =>
    if c = '"' then .ok ([], rest)
    else if c = '\\' then
      match rest with
      | [] => .error (.syntactic .unterminated opening)
      | e :: rest' =>
        if e = 'u' then
          match rest' with
          | h₁ :: h₂ :: h₃ :: h₄ :: rest'' =>
            match codeUnit? h₁ h₂ h₃ h₄ rest'' with
            | some unit => prepend unit (stringUnits opening rest'')
            | none => .error (.syntactic .codeEscape rest)
          | _ => .error (.syntactic .codeEscape rest)
        else
          match letterEscape? e with
          | some d => prepend d.toNat (stringUnits opening rest')
          | none => .error (.syntactic .escape (c :: rest))
    else if c.toNat < 0x20 then .error (.syntactic .control (c :: rest))
    else prepend c.toNat (stringUnits opening rest)

/-- A surrogate of the first half and one of the second half stand for one character. -/
def joinUnits : List Nat → List Char
  | [] => []
  | [u] => [Char.ofNat u]
  | u :: v :: rest =>
    if 0xD800 ≤ u ∧ u < 0xDC00 ∧ 0xDC00 ≤ v ∧ v < 0xE000 then
      Char.ofNat (0x10000 + 0x400 * (u - 0xD800) + (v - 0xDC00)) :: joinUnits rest
    else Char.ofNat u :: joinUnits (v :: rest)

structure Numeral where
  negative : Bool
  whole : List Char
  fraction : Option (List Char)
  exponent : Option Int

/-- A whole part: a zero, or digits of which the first is not zero. -/
def wholePart? : List Char → Option (List Char × List Char)
  | [] => none
  | c :: rest =>
    if c = '0' then some ([c], rest)
    else if c.isDigit then some (c :: rest.takeWhile Char.isDigit, rest.dropWhile Char.isDigit)
    else none

/-- A point and at least one digit. -/
def fractionPart (s : List Char) : Option (List Char) × List Char :=
  match s with
  | '.' :: c :: rest =>
    if c.isDigit then (some (c :: rest.takeWhile Char.isDigit), rest.dropWhile Char.isDigit)
    else (none, s)
  | _ => (none, s)

/-- The letter of an exponent, a sign or none, and at least one digit. -/
def exponentPart (s : List Char) : Option Int × List Char :=
  match s with
  | [] => (none, s)
  | e :: rest =>
    if e = 'e' ∨ e = 'E' then
      let (negative, digits) :=
        match rest with
        | '-' :: r => (true, r)
        | '+' :: r => (false, r)
        | r => (false, r)
      match digits.takeWhile Char.isDigit with
      | [] => (none, s)
      | ds =>
        let n : Int := Nat.ofDigitChars 10 ds 0
        (some (if negative then -n else n), digits.dropWhile Char.isDigit)
    else (none, s)

/-- The longest numeral without a sign at the start of a text. -/
def unsigned? (negative : Bool) (s : List Char) : Option (Numeral × List Char) :=
  match wholePart? s with
  | none => none
  | some (whole, rest) =>
    let fraction := fractionPart rest
    let exponent := exponentPart fraction.2
    some (⟨negative, whole, fraction.1, exponent.1⟩, exponent.2)

def numeral? : List Char → Option (Numeral × List Char)
  | '-' :: rest => unsigned? true rest
  | s => unsigned? false s

/-- A numeral with a fraction or an exponent is a double precision number, any other a whole number. -/
def Numeral.lexeme (n : Numeral) : Lexeme :=
  match n.fraction, n.exponent with
  | none, none =>
    if Decimal.maxDigits < n.whole.length then .brokenNumber (.oversized n.whole.length)
    else
      let m : Int := Nat.ofDigitChars 10 n.whole 0
      .scalar (.int (if n.negative then -m else m))
  | fraction, exponent =>
    let places := fraction.getD []
    let digits := Nat.ofDigitChars 10 (n.whole ++ places) 0
    .scalar (.float (.ofDecimal n.negative digits (exponent.getD 0 - places.length)))

def words : List (String × Value) :=
  [("null", .null), ("true", .bool true), ("false", .bool false), ("NaN", .float .nan),
    ("Infinity", .float (.infinite false)), ("-Infinity", .float (.infinite true))]

/-- The word at the start of a text, and the text after it. -/
def word? (s : List Char) : Option (Value × List Char) :=
  words.findSome? fun (w, v) => if w.toList.isPrefixOf s then some (v, s.drop w.length) else none

/-- The lexemes of one character. -/
def mark? : Char → Option Lexeme
  | '[' => some .openArray
  | ']' => some .closeArray
  | '\x7b' => some .openObject
  | '\x7d' => some .closeObject
  | ':' => some .colon
  | ',' => some .comma
  | _ => none

/-- The lexeme that starts with `c`, and the text after it. -/
def Lexeme.read (c : Char) (rest : List Char) : Lexeme × List Char :=
  match mark? c with
  | some mark => (mark, rest)
  | none =>
    if c = '"' then
      match stringUnits (c :: rest) rest with
      | .ok (units, after) => (.text (String.ofList (joinUnits units)), after)
      | .error f => (.brokenText f, rest)
    else
      match word? (c :: rest) with
      | some (v, after) => (.scalar v, after)
      | none =>
        match numeral? (c :: rest) with
        | some (n, after) => (n.lexeme, after)
        | none => (.unknown, rest)

private theorem stringUnits_length {opening s rest : List Char} {units : List Nat}
    (h : stringUnits opening s = .ok (units, rest)) : rest.length < s.length := by
  fun_induction stringUnits opening s generalizing units rest <;> grind [prepend_ok]

private theorem dropWhile_length (p : Char → Bool) (s : List Char) : (s.dropWhile p).length ≤ s.length :=
  (List.dropWhile_sublist p).length_le

private theorem wholePart?_length {s whole rest : List Char} (h : wholePart? s = some (whole, rest)) :
    rest.length < s.length := by
  unfold wholePart? at h
  grind [dropWhile_length]

private theorem fractionPart_length (s : List Char) : (fractionPart s).2.length ≤ s.length := by
  unfold fractionPart
  grind [dropWhile_length]

private theorem exponentPart_length (s : List Char) : (exponentPart s).2.length ≤ s.length := by
  unfold exponentPart
  grind [dropWhile_length]

private theorem unsigned?_length {negative : Bool} {s rest : List Char} {n : Numeral}
    (h : unsigned? negative s = some (n, rest)) : rest.length < s.length := by
  unfold unsigned? at h
  grind [→ wholePart?_length, fractionPart_length, exponentPart_length]

private theorem numeral?_length {s rest : List Char} {n : Numeral} (h : numeral? s = some (n, rest)) :
    rest.length < s.length := by
  unfold numeral? at h
  grind [→ unsigned?_length]

private theorem word?_length {s rest : List Char} {v : Value} (h : word? s = some (v, rest)) :
    rest.length ≤ s.length - 1 := by
  obtain ⟨⟨w, u⟩, hw, h⟩ := List.exists_of_findSome?_eq_some h
  have long : 1 ≤ w.length := by
    have each : ∀ p ∈ words.map (·.1.length), 1 ≤ p := by decide
    exact each _ (List.mem_map_of_mem hw)
  grind

/-- A lexeme is not empty. -/
theorem Lexeme.read_length (c : Char) (rest : List Char) : (Lexeme.read c rest).2.length ≤ rest.length := by
  unfold Lexeme.read
  grind [→ stringUnits_length, → numeral?_length, → word?_length]

end CInterface.Json
