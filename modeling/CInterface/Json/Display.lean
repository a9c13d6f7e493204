import CInterface.Json.Printer
import CInterface.Text.Quoted

/-!
# Displaying values

How a value reads inside a message: a string is itself, and inside a container it is quoted.
-/

namespace CInterface.Json

mutual

/-- A value as it stands inside a container. -/
def Value.literal : Value → String
  | .null => "None"
  | .bool b => if b then "True" else "False"
  | .int n => toString n
  | .float x => floatText "inf" "-inf" "nan" x
  | .string s => Text.quoted s
  | .array vs => "[" ++ ", ".intercalate (literals vs) ++ "]"
  | .object ms => "\x7b" ++ ", ".intercalate (memberLiterals ms) ++ "\x7d"

def literals : List Value → List String
  | [] => []
  | v :: vs => v.literal :: literals vs

def memberLiterals : Members → List String
  | [] => []
  | (name, v) :: ms => (Text.quoted name ++ ": " ++ v.literal) :: memberLiterals ms

end

/-- A value as it stands alone. -/
def Value.display : Value → String
  | .string s => s
  | v => v.literal

end CInterface.Json
