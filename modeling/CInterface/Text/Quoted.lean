import CInterface.Text.Hex
import CInterface.Text.Unprintable

/-!
# Quoted texts

A text inside a message stands between single quotes, or between double quotes when it holds a single quote
and no double one. Backslashes, the delimiter, line ends, tabs and unprintable characters are escaped, so the
quoted form is one printable line.
-/

namespace CInterface.Text

/-- A single quote, unless the text holds one and no double quote. -/
def delimiterFor (s : List Char) : Char :=
  if s.contains '\'' && !s.contains '"' then '"' else '\''

/-- An unprintable character by its code, in two, four or eight digits. -/
def codeEscape (c : Char) : List Char :=
  if c.toNat < 0x100 then '\\' :: 'x' :: hex 2 c.toNat
  else if c.toNat < 0x10000 then '\\' :: 'u' :: hex 4 c.toNat
  else '\\' :: 'U' :: hex 8 c.toNat

def escape (delimiter c : Char) : List Char :=
  if c = '\\' ∨ c = delimiter then ['\\', c]
  else if c = '\n' then ['\\', 'n']
  else if c = '\r' then ['\\', 'r']
  else if c = '\t' then ['\\', 't']
  else if isUnprintable c then codeEscape c
  else [c]

/-- A text in quotes. -/
def quoted (s : String) : String :=
  let delimiter := delimiterFor s.toList
  String.ofList (delimiter :: s.toList.flatMap (escape delimiter) ++ [delimiter])

example : quoted "it's" = "\"it's\"" := by decide +kernel

example : quoted "a\x00\n" = "'a\\x00\\n'" := by decide +kernel

end CInterface.Text
