import CInterface.Text.Hex

/-!
# UTF-8

Texts as octets and octets as texts. Decoding reads one octet at a time and stops at the first place where no
character can be completed; the fault covers the octets read of that character. A text read from a file has its
line ends, of whichever of the three kinds, as line feeds.
-/

namespace CInterface.Text

def encode (s : String) : List UInt8 :=
  s.toList.flatMap String.utf8EncodeChar

inductive DecodeCause where
  | start
  | continuation
  | truncated
  deriving DecidableEq, Repr

/-- A fault of decoding: the octets of the incomplete character, and where the first of them stands. -/
structure DecodeFault where
  cause : DecodeCause
  position : Nat
  octets : List UInt8
  deriving DecidableEq, Repr

def DecodeCause.message : DecodeCause → String
  | .start => "invalid start byte"
  | .continuation => "invalid continuation byte"
  | .truncated => "unexpected end of data"

def DecodeFault.message (f : DecodeFault) : String :=
  let place :=
    match f.octets with
    | [octet] => "byte 0x" ++ String.ofList (hex 2 octet.toNat) ++ " in position " ++ toString f.position
    | octets => "bytes in position " ++ toString f.position ++ "-" ++ toString (f.position + octets.length - 1)
  "'utf-8' codec can't decode " ++ place ++ ": " ++ f.cause.message

/-- A character of which some octets have been read, the last one first. `low` and `high` bound the next one. -/
structure Partial where
  octets : List UInt8
  code : Nat
  missing : Nat
  low : UInt8
  high : UInt8

/-- What the first octet of a character says about the octets after it. Overlong forms, surrogates and codes
beyond the last one are shut out by the bounds on the second octet. -/
def Partial.ofStart? (b : UInt8) : Option Partial :=
  if b < 0xC2 then none
  else if b < 0xE0 then some ⟨[b], b.toNat - 0xC0, 1, 0x80, 0xBF⟩
  else if b < 0xF0 then
    some ⟨[b], b.toNat - 0xE0, 2, if b = 0xE0 then 0xA0 else 0x80, if b = 0xED then 0x9F else 0xBF⟩
  else if b < 0xF5 then
    some ⟨[b], b.toNat - 0xF0, 3, if b = 0xF0 then 0x90 else 0x80, if b = 0xF4 then 0x8F else 0xBF⟩
  else none

/-- Decodes octets from `position` on, between two characters or inside one. -/
def decodeFrom (position : Nat) : Option Partial → List UInt8 → Except DecodeFault (List Char)
  | none, [] => .ok []
  | some p, [] => .error ⟨.truncated, position - p.octets.length, p.octets.reverse⟩
  | none, b :: bs =>
    if b < 0x80 then do
      let cs ← decodeFrom (position + 1) none bs
      return Char.ofNat b.toNat :: cs
    else
      match Partial.ofStart? b with
      | none => .error ⟨.start, position, [b]⟩
      | some p => decodeFrom (position + 1) (some p) bs
  | some p, b :: bs =>
    if b < p.low ∨ p.high < b then .error ⟨.continuation, position - p.octets.length, p.octets.reverse⟩
    else
      let code := 64 * p.code + (b.toNat - 0x80)
      if p.missing = 1 then do
        let cs ← decodeFrom (position + 1) none bs
        return Char.ofNat code :: cs
      else decodeFrom (position + 1) (some ⟨b :: p.octets, code, p.missing - 1, 0x80, 0xBF⟩) bs

/-- The text that octets encode. -/
def decode (bs : List UInt8) : Except DecodeFault String :=
  (decodeFrom 0 none bs).map String.ofList

/-- Line ends as line feeds: a carriage return, with the line feed after it if there is one, becomes one. -/
def normalizeNewlines : List Char → List Char
  | [] => []
  | '\r' :: '\n' :: cs => '\n' :: normalizeNewlines cs
  | c :: cs => (if c = '\r' then '\n' else c) :: normalizeNewlines cs

example : decode [0xE2, 0x82, 0xAC] = .ok "€" := by rfl

example : decode [0x61, 0xE2, 0x82] = .error ⟨.truncated, 1, [0xE2, 0x82]⟩ := by rfl

end CInterface.Text
