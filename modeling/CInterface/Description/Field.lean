import CInterface.Description.Error

/-!
# Fields of a description

A required field must be there and have its shape. An optional field may be absent or null; otherwise it must
have its shape too.
-/

namespace CInterface.Description

/-- How a value of one shape is seen. -/
structure View (α : Type) where
  shape : Shape
  get? : Json.Value → Option α

namespace View

def text : View String := ⟨.text, fun | .string s => some s | _ => none⟩

def whole : View Int := ⟨.whole, fun | .int n => some n | _ => none⟩

def flag : View Bool := ⟨.flag, fun | .bool b => some b | _ => none⟩

def list : View (List Json.Value) := ⟨.list, fun | .array vs => some vs | _ => none⟩

def object : View Json.Members := ⟨.object, fun | .object ms => some ms | _ => none⟩

end View

variable {α : Type}

def View.read (view : View α) (key : String) (v : Json.Value) : Except Cause α :=
  match view.get? v with
  | some a => .ok a
  | none => .error (.wrongShape key view.shape (.of v))

def require (members : Json.Members) (key : String) (view : View α) : Except Cause α :=
  match members.find? key with
  | none => .error (.missing key)
  | some v => view.read key v

def optional (members : Json.Members) (key : String) (view : View α) : Except Cause (Option α) :=
  match members.find? key with
  | none => .ok none
  | some .null => .ok none
  | some v => (view.read key v).map some

/-- An optional flag, which is down when it is not given. -/
def optionalFlag (members : Json.Members) (key : String) : Except Cause Bool :=
  (optional members key .flag).map (·.getD false)

/-- The members of each item of a list; all items must be objects. -/
def objects (key : String) (index : Nat) : List Json.Value → Except Cause (List Json.Members)
  | [] => .ok []
  | .object members :: rest => (objects key (index + 1) rest).map (members :: ·)
  | _ :: _ => .error (.itemShape key index)

/-- An optional list of objects, which is empty when it is not given. -/
def objectList (members : Json.Members) (key : String) : Except Cause (List Json.Members) := do
  let items ← optional members key .list
  objects key 0 (items.getD [])

end CInterface.Description
