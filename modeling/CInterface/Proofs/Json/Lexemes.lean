import CInterface.Json.Printer
import CInterface.Json.Reader
import CInterface.Text.DecimalDigit
import Mathlib.Tactic.IntervalCases

/-!
# Lexemes read back

A string and a whole number are read back from their texts as they were. What stands behind a whole number must not
go on with it.
-/

namespace CInterface.Json

open Decimal (digitCount maxDigits)

/-- The code units of a text in front of a result. -/
def prependAll (units : List Nat) (x : Except Fault (List Nat × List Char)) : Except Fault (List Nat × List Char) :=
  units.foldr prepend x

theorem prependAll_ok (units others : List Nat) (rest : List Char) :
    prependAll units (.ok (others, rest)) = .ok (units ++ others, rest) := by
  induction units with
  | nil => rfl
  | cons u units ih => rw [prependAll, List.foldr_cons, ← prependAll, ih, prepend, List.cons_append]

theorem codeUnit?_hex {u : Nat} (h : u < 0x10000) {rest : List Char} (more : rest ≠ []) :
    ∃ a b c d, Text.hex 4 u = [a, b, c, d] ∧ codeUnit? a b c d rest = some u := by
  have number : Text.hexNumber? 0 (Text.hex 4 u) = some u := Text.hexNumber?_hex h
  refine ⟨_, _, _, _, rfl, ?_⟩
  rw [codeUnit?, if_neg (by simpa using more)]
  exact number

/-- An escape of a code unit is read as that code unit. -/
theorem stringUnits_hex {u : Nat} (h : u < 0x10000) (opening : List Char) {rest : List Char} (more : rest ≠ []) :
    stringUnits opening (('\\' :: 'u' :: Text.hex 4 u) ++ rest) = prepend u (stringUnits opening rest) := by
  obtain ⟨a, b, c, d, digits, unit⟩ := codeUnit?_hex h more
  rw [digits, stringUnits.eq_def]
  simp [unit]

theorem stringUnits_letter {c d : Char} (letter : letterEscape? d = some c) (other : d ≠ 'u')
    (opening rest : List Char) :
    stringUnits opening ('\\' :: d :: rest) = prepend c.toNat (stringUnits opening rest) := by
  rw [stringUnits.eq_def]
  simp [letter, other]

theorem stringUnits_plain {c : Char} (quote : c ≠ '"') (slash : c ≠ '\\') (low : 0x20 ≤ c.toNat)
    (opening rest : List Char) : stringUnits opening (c :: rest) = prepend c.toNat (stringUnits opening rest) := by
  rw [stringUnits.eq_def]
  simp only [if_neg quote, if_neg slash, if_neg (Nat.not_lt.2 low)]

/-- No character is a surrogate or beyond the last plane. -/
theorem toNat_valid (c : Char) : c.toNat < 0xD800 ∨ 0xDFFF < c.toNat ∧ c.toNat < 0x110000 := c.valid

theorem codeUnits_lt {c : Char} {u : Nat} (hu : u ∈ codeUnits c) : u < 0x10000 := by
  have valid := toNat_valid c
  simp only [codeUnits] at hu
  split at hu
  · rw [List.mem_singleton.1 hu]
    assumption
  · simp only [List.mem_cons, List.not_mem_nil, or_false] at hu
    omega

theorem codeUnits_of_lt {c : Char} (h : c.toNat < 0x10000) : codeUnits c = [c.toNat] := if_pos h

theorem stringUnits_units {units : List Nat} (h : ∀ u ∈ units, u < 0x10000) (opening : List Char)
    {rest : List Char} (more : rest ≠ []) :
    stringUnits opening ((units.flatMap fun u => '\\' :: 'u' :: Text.hex 4 u) ++ rest)
      = prependAll units (stringUnits opening rest) := by
  induction units with
  | nil => rfl
  | cons u units ih =>
    obtain ⟨head, tail⟩ := List.forall_mem_cons.1 h
    rw [List.flatMap_cons, List.append_assoc, stringUnits_hex head opening (by simp [more]), ih tail, prependAll,
      prependAll, List.foldr_cons]

/-- A character stands in a string behind a backslash, as itself or by a letter, or it stands there alone, or its code
units stand for it. -/
theorem escaped_cases (c : Char) :
    (c.toNat < 0x80 ∧ ∃ d, escaped c = ['\\', d] ∧ letterEscape? d = some c ∧ d ≠ 'u' ∧ d.toNat < 0x80) ∨
      (escaped c = [c] ∧ c ≠ '"' ∧ c ≠ '\\' ∧ 0x20 ≤ c.toNat ∧ c.toNat < 0x7F) ∨
      escaped c = (codeUnits c).flatMap fun u => '\\' :: 'u' :: Text.hex 4 u := by
  by_cases lettered : c ∈ ['"', '\\', '\n', '\r', '\t', '\x08', '\x0c']
  · left
    simp only [List.mem_cons, List.not_mem_nil, or_false] at lettered
    obtain rfl | rfl | rfl | rfl | rfl | rfl | rfl := lettered <;>
      exact ⟨by decide, _, rfl, rfl, by decide, by decide⟩
  · simp only [List.mem_cons, List.not_mem_nil, or_false, not_or] at lettered
    obtain ⟨quote, slash, line, carriage, tab, back, form⟩ := lettered
    right
    rw [escaped, if_neg (not_or.2 ⟨quote, slash⟩), if_neg line, if_neg carriage, if_neg tab, if_neg back, if_neg form]
    split
    · next printable => exact .inl ⟨rfl, quote, slash, printable⟩
    · exact .inr rfl

theorem stringUnits_escaped (c : Char) (opening : List Char) {rest : List Char} (more : rest ≠ []) :
    stringUnits opening (escaped c ++ rest) = prependAll (codeUnits c) (stringUnits opening rest) := by
  obtain ⟨small, d, text, letter, other, -⟩ | ⟨text, quote, slash, low, small⟩ | text := escaped_cases c
  · rw [text, codeUnits_of_lt (by omega)]
    exact stringUnits_letter letter other opening rest
  · rw [text, codeUnits_of_lt (by omega)]
    exact stringUnits_plain quote slash low opening rest
  · rw [text]
    exact stringUnits_units (fun u hu => codeUnits_lt hu) opening more

theorem stringUnits_text (cs : List Char) (opening rest : List Char) :
    stringUnits opening (cs.flatMap escaped ++ '"' :: rest) = .ok (cs.flatMap codeUnits, rest) := by
  induction cs with
  | nil =>
    rw [List.flatMap_nil, List.nil_append, stringUnits.eq_def]
    rfl
  | cons c cs ih =>
    rw [List.flatMap_cons, List.append_assoc, stringUnits_escaped c opening (by simp), ih, prependAll_ok,
      List.flatMap_cons]

theorem joinUnits_codeUnits (c : Char) (units : List Nat) :
    joinUnits (codeUnits c ++ units) = c :: joinUnits units := by
  have valid := toNat_valid c
  by_cases first : c.toNat < 0x10000
  · rw [codeUnits_of_lt first, List.singleton_append]
    cases units with
    | nil => simp only [joinUnits, Char.ofNat_toNat]
    | cons v units => rw [joinUnits, if_neg (by omega), Char.ofNat_toNat]
  · have pair : codeUnits c = [0xD800 + (c.toNat - 0x10000) / 0x400, 0xDC00 + (c.toNat - 0x10000) % 0x400] :=
      if_neg first
    have whole : 0x10000 + 0x400 * (0xD800 + (c.toNat - 0x10000) / 0x400 - 0xD800)
        + (0xDC00 + (c.toNat - 0x10000) % 0x400 - 0xDC00) = c.toNat := by omega
    rw [pair, List.cons_append, List.singleton_append, joinUnits, if_pos (by omega), whole, Char.ofNat_toNat]

theorem joinUnits_text (cs : List Char) : joinUnits (cs.flatMap codeUnits) = cs := by
  induction cs with
  | nil => rfl
  | cons c cs ih => rw [List.flatMap_cons, joinUnits_codeUnits, ih]

/-- The text of a string is read back as that string. -/
theorem read_stringText (s : String) (rest : List Char) :
    ∃ inner, (stringText s).toList = '"' :: inner ∧ Lexeme.read '"' (inner ++ rest) = (.text s, rest) := by
  refine ⟨s.toList.flatMap escaped ++ ['"'], by simp [stringText], ?_⟩
  have mark : mark? '"' = none := rfl
  rw [Lexeme.read, mark]
  simp only [if_true, List.append_assoc, List.singleton_append, stringUnits_text, joinUnits_text,
    String.ofList_toList]

/-- What stands behind a number does not go on with it. -/
def Delimited (rest : List Char) : Prop :=
  ∀ c ∈ rest.head?, c.isDigit = false ∧ c ≠ '.' ∧ c ≠ 'e' ∧ c ≠ 'E'

theorem takeWhile_digits {ds rest : List Char} (h : ∀ d ∈ ds, d.isDigit = true) (delimited : Delimited rest) :
    (ds ++ rest).takeWhile Char.isDigit = ds ∧ (ds ++ rest).dropWhile Char.isDigit = rest := by
  rw [List.takeWhile_append_of_pos h, List.dropWhile_append_of_pos h]
  cases rest with
  | nil => simp
  | cons c rest => simp [(delimited c rfl).1]

/-- Only the numeral of zero starts with a zero. -/
theorem toDigits_head {n : Nat} (pos : 0 < n) : ∃ d ds, Nat.toDigits 10 n = d :: ds ∧ d ≠ '0' := by
  induction n using Nat.strong_induction_on with
  | _ n ih =>
    by_cases small : n < 10
    · refine ⟨_, _, Nat.toDigits_of_lt_base small, ?_⟩
      interval_cases n <;> decide
    · obtain ⟨d, ds, shape, other⟩ := ih (n / 10) (by omega) (by omega)
      exact ⟨d, _, by rw [Nat.toDigits_of_base_le (by decide) (by omega), shape, List.cons_append], other⟩

theorem isDigit_of_mem_toDigits {n : Nat} {d : Char} (h : d ∈ Nat.toDigits 10 n) : d.isDigit = true :=
  Nat.isDigit_of_mem_toDigits (by decide) (by decide) h

theorem wholePart?_digits (n : Nat) {rest : List Char} (delimited : Delimited rest) :
    wholePart? (Nat.toDigits 10 n ++ rest) = some (Nat.toDigits 10 n, rest) := by
  obtain rfl | pos := Nat.eq_zero_or_pos n
  · rfl
  · obtain ⟨d, ds, shape, other⟩ := toDigits_head pos
    have digits : ∀ e ∈ d :: ds, e.isDigit = true := fun e he => isDigit_of_mem_toDigits (shape ▸ he)
    obtain ⟨head, tail⟩ := List.forall_mem_cons.1 digits
    obtain ⟨taken, dropped⟩ := takeWhile_digits tail delimited
    rw [shape, List.cons_append, wholePart?, if_neg other, if_pos head, taken, dropped]

theorem fractionPart_delimited {rest : List Char} (delimited : Delimited rest) : fractionPart rest = (none, rest) := by
  rw [fractionPart.eq_def]
  split
  · exact absurd rfl (delimited '.' rfl).2.1
  · rfl

theorem exponentPart_delimited {rest : List Char} (delimited : Delimited rest) : exponentPart rest = (none, rest) := by
  cases rest with
  | nil => rfl
  | cons c rest =>
    obtain ⟨-, -, lower, upper⟩ := delimited c rfl
    exact if_neg (by simp [lower, upper])

theorem unsigned?_digits (negative : Bool) (n : Nat) {rest : List Char} (delimited : Delimited rest) :
    unsigned? negative (Nat.toDigits 10 n ++ rest) = some (⟨negative, Nat.toDigits 10 n, none, none⟩, rest) := by
  rw [unsigned?, wholePart?_digits n delimited]
  simp only [fractionPart_delimited delimited, exponentPart_delimited delimited]

theorem lexeme_digits (negative : Bool) {n : Nat} (sized : (Nat.toDigits 10 n).length ≤ maxDigits) :
    (Numeral.mk negative (Nat.toDigits 10 n) none none).lexeme = .scalar (.int (if negative then -n else n)) := by
  rw [Numeral.lexeme, if_neg (Nat.not_lt.2 sized), Nat.ofDigitChars_toDigits (by decide) (by decide)]

/-- The characters that numbers start with are no marks, no quotes and start no words but that of an infinity. -/
theorem read_numeral {c : Char} {rest after : List Char} {n : Numeral} (mark : mark? c = none) (quote : c ≠ '"')
    (word : word? (c :: rest) = none) (numeral : numeral? (c :: rest) = some (n, after)) :
    Lexeme.read c rest = (n.lexeme, after) := by
  rw [Lexeme.read, mark]
  simp only [if_neg quote, word, numeral]

theorem ne_of_isDigit {d c : Char} (digit : d.isDigit = true) (other : c.isDigit = false) : d ≠ c := by
  rintro rfl
  rw [digit] at other
  contradiction

theorem mark?_digit {d : Char} (digit : d.isDigit = true) : mark? d = none := by
  rw [mark?.eq_def]
  split
  · contradiction
  · contradiction
  · contradiction
  · contradiction
  · contradiction
  · contradiction
  · rfl

/-- No word has a digit in one of its first two places. -/
theorem word?_eq_none {i : Nat} (first : i < 2) {s : List Char} {d : Char} (here : s[i]? = some d)
    (digit : d.isDigit = true) : word? s = none := by
  have letters : ∀ p ∈ words, ∀ i < 2, p.1.toList[i]?.map Char.isDigit = some false := by decide
  refine List.findSome?_eq_none_iff.2 fun p hp => if_neg fun starts => ?_
  obtain ⟨rest, rfl⟩ := List.isPrefixOf_iff_prefix.1 starts
  have letter := letters p hp i first
  cases inside : p.1.toList[i]? with
  | none =>
    rw [inside] at letter
    cases letter
  | some c =>
    rw [List.getElem?_append_left (List.getElem?_eq_some_iff.1 inside).1, inside] at here
    rw [inside, here, Option.map_some, digit] at letter
    cases letter

theorem numeral?_digit {d : Char} (digit : d.isDigit = true) (rest : List Char) :
    numeral? (d :: rest) = unsigned? false (d :: rest) := by
  rw [numeral?.eq_def]
  split
  · next minus => exact absurd (List.cons.inj minus).1 (ne_of_isDigit digit (by decide))
  · rfl

/-- The text of a whole number that is not too long is read back as that number. -/
theorem read_int {n : Int} (sized : digitCount n ≤ maxDigits) {rest : List Char} (delimited : Delimited rest) :
    ∃ c inner, (toString n).toList = c :: inner ∧ isSpace c = false ∧
      Lexeme.read c (inner ++ rest) = (.scalar (.int n), rest) := by
  obtain ⟨d, ds, shape⟩ := List.exists_cons_of_ne_nil (Nat.toDigits_ne_nil (n := n.natAbs) (b := 10))
  have digit : d.isDigit = true := isDigit_of_mem_toDigits (shape ▸ List.mem_cons_self)
  have numeral (negative : Bool) := unsigned?_digits negative n.natAbs delimited
  rw [shape, List.cons_append] at numeral
  have lexeme (negative : Bool) := lexeme_digits negative sized
  rw [shape] at lexeme
  by_cases negative : n < 0
  · have number : -(n.natAbs : Int) = n := by omega
    have text : n.repr.toList = '-' :: d :: ds := by
      rw [Text.toList_repr, if_neg (by omega), shape]
      rfl
    -- a minus sign begins a word, too, but not with a digit behind it
    have read : Lexeme.read '-' (d :: (ds ++ rest)) = (_, rest) :=
      read_numeral rfl (by decide) (word?_eq_none (i := 1) (by decide) rfl digit) (numeral true)
    refine ⟨'-', d :: ds, text, rfl, ?_⟩
    rw [List.cons_append, read, lexeme, if_pos rfl, number]
  · have number : (n.natAbs : Int) = n := by omega
    have text : n.repr.toList = d :: ds := by
      rw [Text.toList_repr, if_pos (by omega), shape]
      rfl
    have blank : isSpace d = false := by
      have other (c : Char) (h : c.isDigit = false) : (d == c) = false := beq_false_of_ne (ne_of_isDigit digit h)
      rw [isSpace, other _ (by decide), other _ (by decide), other _ (by decide), other _ (by decide)]
      rfl
    have read : Lexeme.read d (ds ++ rest) = (_, rest) :=
      read_numeral (mark?_digit digit) (ne_of_isDigit digit (by decide))
        (word?_eq_none (i := 0) (by decide) rfl digit) ((numeral?_digit digit _).trans (numeral false))
    refine ⟨d, ds, text, blank, ?_⟩
    rw [read, lexeme, if_neg (by decide), number]

end CInterface.Json
