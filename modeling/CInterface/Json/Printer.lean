import CInterface.Decimal.Shortest
import CInterface.Json.Value
import CInterface.Text.Hex

/-!
# Writing JSON

Strings are written in printable ASCII: other characters are escaped by their UTF-16 code units. On one line, items
are separated by a comma and a space; with an indent, every item stands on a line of its own and an empty
container stays closed.
-/

namespace CInterface.Json

/-- Numerals are positional from one ten-thousandth up to below ten to the sixteenth. -/
def numerals : Decimal.Layout := ⟨-4, 16⟩

/-- A double precision number, with the words for infinities and for no number. -/
def floatText (positive negative nan : String) : Decimal.Binary64 → String
  | .finite sign m e => numerals.finite sign m e
  | .infinite true => negative
  | .infinite false => positive
  | .nan => nan

def codeUnits (c : Char) : List Nat :=
  let n := c.toNat
  if n < 0x10000 then [n] else [0xD800 + (n - 0x10000) / 0x400, 0xDC00 + (n - 0x10000) % 0x400]

def escaped (c : Char) : List Char :=
  if c = '"' ∨ c = '\\' then ['\\', c]
  else if c = '\n' then ['\\', 'n']
  else if c = '\r' then ['\\', 'r']
  else if c = '\t' then ['\\', 't']
  else if c = '\x08' then ['\\', 'b']
  else if c = '\x0c' then ['\\', 'f']
  else if 0x20 ≤ c.toNat ∧ c.toNat < 0x7F then [c]
  else (codeUnits c).flatMap fun u => '\\' :: 'u' :: Text.hex 4 u

def stringText (s : String) : String :=
  String.ofList ('"' :: s.toList.flatMap escaped ++ ['"'])

/-- All on one line, or every item on a line of its own, indented by a text once for each open container. -/
inductive Style where
  | compact
  | indented (unit : String)
  deriving DecidableEq, Repr

def Style.lineBreak (style : Style) (depth : Nat) : String :=
  match style with
  | .compact => ""
  | .indented unit => "\n" ++ String.join (List.replicate depth unit)

def Style.separator (style : Style) (depth : Nat) : String :=
  match style with
  | .compact => ", "
  | .indented _ => "," ++ style.lineBreak depth

mutual

/-- The text of a value inside `depth` open containers, however many digits its numbers have. -/
def Value.render (style : Style) (depth : Nat) : Value → String
  | .null => "null"
  | .bool b => if b then "true" else "false"
  | .int n => toString n
  | .float x => floatText "Infinity" "-Infinity" "NaN" x
  | .string s => stringText s
  | .array [] => "[]"
  | .array (v :: vs) =>
    "[" ++ style.lineBreak (depth + 1) ++ v.render style (depth + 1) ++ renderItems style (depth + 1) vs
      ++ style.lineBreak depth ++ "]"
  | .object [] => "\x7b\x7d"
  | .object ((name, v) :: members) =>
    "\x7b" ++ style.lineBreak (depth + 1) ++ stringText name ++ ": " ++ v.render style (depth + 1)
      ++ renderMembers style (depth + 1) members ++ style.lineBreak depth ++ "\x7d"

/-- Items after the first one, each after a separator. -/
def renderItems (style : Style) (depth : Nat) : List Value → String
  | [] => ""
  | v :: vs => style.separator depth ++ v.render style depth ++ renderItems style depth vs

def renderMembers (style : Style) (depth : Nat) : Members → String
  | [] => ""
  | (name, v) :: members =>
    style.separator depth ++ stringText name ++ ": " ++ v.render style depth
      ++ renderMembers style depth members

end

/-- The text of a value, however many digits its numbers have. -/
def Value.text (style : Style) (v : Value) : String := v.render style 0

/-- The text of a value. There is none if a whole number in it has too many digits. -/
def Value.text? (style : Style) (v : Value) : Option String := if v.Sized then some (v.text style) else none

end CInterface.Json
