import CInterface.Source.Primitive

/-!
# Type expressions

The types of declarations before any C is written: primitives, pointers to mutable or constant data, and names
with type arguments.
-/

namespace CInterface.Source

inductive TypeExpr where
  | primitive (p : Primitive)
  | pointer (isMutable : Bool) (pointee : TypeExpr)
  | named (name : String) (args : List TypeExpr)
  deriving Repr

namespace TypeExpr

mutual

/-- The text of a type in the declaring language. -/
def text : TypeExpr → String
  | .primitive p => p.native
  | .pointer isMutable pointee => (if isMutable then "*mut " else "*const ") ++ pointee.text
  | .named name args =>
    match args with
    | [] => name
    | args => name ++ "<" ++ ", ".intercalate (texts args) ++ ">"

def texts : List TypeExpr → List String
  | [] => []
  | t :: ts => t.text :: texts ts

end

/-- Whether a name with type arguments stands under the pointers of a type. -/
def isParameterized : TypeExpr → Bool
  | .primitive _ => false
  | .pointer _ pointee => pointee.isParameterized
  | .named _ args => !args.isEmpty

mutual

def decEq : (a b : TypeExpr) → Decidable (a = b)
  | .primitive p, .primitive q => decidable_of_iff (p = q) (by simp)
  | .pointer m a, .pointer n b =>
    match decEq a b with
    | isTrue h => decidable_of_iff (m = n) (by simp [h])
    | isFalse h => isFalse (by simp [h])
  | .named m as, .named n bs =>
    match decEqs as bs with
    | isTrue h => decidable_of_iff (m = n) (by simp [h])
    | isFalse h => isFalse (by simp [h])
  | .primitive _, .pointer .. | .primitive _, .named .. | .pointer .., .primitive _
  | .pointer .., .named .. | .named .., .primitive _ | .named .., .pointer .. => isFalse nofun

def decEqs : (as bs : List TypeExpr) → Decidable (as = bs)
  | [], [] => isTrue rfl
  | a :: as, b :: bs =>
    match decEq a b, decEqs as bs with
    | isTrue h, isTrue h' => isTrue (by simp [h, h'])
    | isFalse h, _ => isFalse (by simp [h])
    | _, isFalse h => isFalse (by simp [h])
  | [], _ :: _ | _ :: _, [] => isFalse nofun

end

instance : DecidableEq TypeExpr := decEq

end TypeExpr

end CInterface.Source
