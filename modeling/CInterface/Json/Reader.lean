import CInterface.Json.Lexeme

/-!
# Reading JSON

A text is read lexeme by lexeme. The state holds what may come next and the containers that are still open, the
innermost first. A lexeme that may not come next is a fault at its first character; an end of text that comes
too early is a fault at the end.
-/

namespace CInterface.Json

/-- A container that is still open: the items read so far, the last one first, or the members read so far and
the name of the one being read. -/
inductive Frame where
  | array (items : List Value)
  | object (members : Members) (name : String)

inductive Want where
  | value
  | item
  | name (members : Members) (closable : Bool)
  | colon (members : Members) (name : String)
  | after (v : Value)

structure State where
  want : Want
  stack : List Frame

/-- Starts a value, or faults if the lexeme starts none. `here` is the text from the lexeme on. -/
def State.start (here : List Char) (stack : List Frame) : Lexeme → Except Fault State
  | .openArray => .ok ⟨.item, stack⟩
  | .openObject => .ok ⟨.name [] true, stack⟩
  | .text s => .ok ⟨.after (.string s), stack⟩
  | .scalar v => .ok ⟨.after v, stack⟩
  | .brokenText f => .error f
  | .brokenNumber f => .error f
  | _ => .error (.syntactic .value here)

/-- The state after a lexeme. -/
def State.step (here : List Char) (state : State) (lexeme : Lexeme) : Except Fault State :=
  match state.want, state.stack, lexeme with
  | .value, stack, lexeme => start here stack lexeme
  | .item, stack, .closeArray => .ok ⟨.after (.array []), stack⟩
  | .item, stack, lexeme => start here (.array [] :: stack) lexeme
  | .name members _, stack, .text s => .ok ⟨.colon members s, stack⟩
  | .name members true, stack, .closeObject => .ok ⟨.after (.object members), stack⟩
  | .name _ _, _, .brokenText f => .error f
  | .name _ _, _, _ => .error (.syntactic .name here)
  | .colon members name, stack, .colon => .ok ⟨.value, .object members name :: stack⟩
  | .colon _ _, _, _ => .error (.syntactic .colon here)
  | .after v, .array items :: stack, .comma => .ok ⟨.value, .array (v :: items) :: stack⟩
  | .after v, .array items :: stack, .closeArray => .ok ⟨.after (.array (v :: items).reverse), stack⟩
  | .after v, .object members name :: stack, .comma => .ok ⟨.name (members.put name v) false, stack⟩
  | .after v, .object members name :: stack, .closeObject =>
    .ok ⟨.after (.object (members.put name v)), stack⟩
  | .after _, _ :: _, _ => .error (.syntactic .comma here)
  | .after _, [], _ => .error (.syntactic .extra here)

def isSpace (c : Char) : Bool := c == ' ' || c == '\t' || c == '\n' || c == '\r'

/-- Reads a text to its end. -/
def run (state : State) : List Char → Except Fault Value
  | [] =>
    match state.want, state.stack with
    | .after v, [] => .ok v
    | _, _ => (state.step [] .endOfText).bind fun _ => .error (.syntactic .value [])
  | c :: rest =>
    if isSpace c then run state rest
    else (state.step (c :: rest) (Lexeme.read c rest).1).bind fun next => run next (Lexeme.read c rest).2
termination_by s => s.length
decreasing_by
  · exact Nat.lt_succ_self _
  · exact Nat.lt_succ_of_le (Lexeme.read_length c rest)

/-- A place in a text: line and column count from one, the offset from zero. Only line feeds end a line. -/
structure Position where
  line : Nat
  column : Nat
  offset : Nat
  deriving DecidableEq, Repr

def Position.after (before : List Char) : Position :=
  ⟨before.count '\n' + 1, (before.reverse.takeWhile (· ≠ '\n')).length + 1, before.length⟩

inductive ReadError where
  | malformed (cause : Cause) (position : Position)
  | oversized (digits : Nat)
  deriving DecidableEq, Repr

def ReadError.message : ReadError → String
  | .malformed cause p =>
    cause.message ++ ": line " ++ toString p.line ++ " column " ++ toString p.column
      ++ " (char " ++ toString p.offset ++ ")"
  | .oversized digits => Decimal.limitMessage (": value has " ++ toString digits ++ " digits")

def Fault.locate (text : List Char) : Fault → ReadError
  | .syntactic cause rest => .malformed cause (.after (text.take (text.length - rest.length)))
  | .oversized digits => .oversized digits

/-- Reads one value and nothing else. -/
def parse (text : String) : Except ReadError Value :=
  let s := text.toList
  if s.head? = some '\uFEFF' then .error ((Fault.syntactic .byteOrderMark s).locate s)
  else (run ⟨.value, []⟩ s).mapError (·.locate s)

end CInterface.Json
