/-!
# C types

A base type under any number of pointer levels. Qualifiers belong to a level: those of a base type stand before
its name, those of a pointer behind its star.
-/

namespace CInterface

/-- A type name with its qualifiers. A name is incomplete if nothing is known of its layout; it then has to be
declared in advance. -/
structure BaseType where
  name : String
  qualifiers : List String
  isIncomplete : Bool
  deriving DecidableEq, Repr

inductive CType where
  | base (b : BaseType)
  | pointer (pointee : CType) (qualifiers : List String)
  deriving DecidableEq, Repr

def BaseType.text (b : BaseType) : String :=
  if b.qualifiers.isEmpty then b.name else " ".intercalate b.qualifiers ++ " " ++ b.name

namespace CType

def ofName (name : String) : CType := .base ⟨name, [], false⟩

def star (pointee : String) (qualifiers : List String) : String :=
  if qualifiers.isEmpty then pointee ++ "*" else pointee ++ "* " ++ " ".intercalate qualifiers

/-- The text of a type, the base first and the outermost pointer last. -/
def text : CType → String
  | .base b => b.text
  | .pointer pointee qualifiers => star pointee.text qualifiers

/-- The type below all pointers. -/
def baseType : CType → BaseType
  | .base b => b
  | .pointer pointee _ => pointee.baseType

def depth : CType → Nat
  | .base _ => 0
  | .pointer pointee _ => pointee.depth + 1

/-- The type with its outermost level constant. -/
def withConst : CType → CType
  | .base b => .base { b with qualifiers := "const" :: b.qualifiers }
  | .pointer pointee qualifiers => .pointer pointee ("const" :: qualifiers)

@[simp] theorem baseType_ofName (name : String) : (ofName name).baseType = ⟨name, [], false⟩ := rfl

@[simp] theorem name_baseType_withConst (t : CType) : t.withConst.baseType.name = t.baseType.name := by
  cases t <;> rfl

@[simp] theorem isIncomplete_baseType_withConst (t : CType) :
    t.withConst.baseType.isIncomplete = t.baseType.isIncomplete := by
  cases t <;> rfl

@[simp] theorem depth_withConst (t : CType) : t.withConst.depth = t.depth := by
  cases t <;> rfl

end CType

end CInterface
