/-!
# Primitive types

The scalar types of fixed meaning, each with the spelling of the declaring language and the spelling of C.
-/

namespace CInterface.Source

inductive Primitive where
  | void
  | bool
  | i8
  | i16
  | i32
  | i64
  | u8
  | u16
  | u32
  | u64
  | isize
  | usize
  | f32
  | f64
  deriving DecidableEq, Repr

namespace Primitive

def all : List Primitive :=
  [.void, .bool, .i8, .i16, .i32, .i64, .u8, .u16, .u32, .u64, .isize, .usize, .f32, .f64]

def native : Primitive → String
  | .void => "()"
  | .bool => "bool"
  | .i8 => "i8"
  | .i16 => "i16"
  | .i32 => "i32"
  | .i64 => "i64"
  | .u8 => "u8"
  | .u16 => "u16"
  | .u32 => "u32"
  | .u64 => "u64"
  | .isize => "isize"
  | .usize => "usize"
  | .f32 => "f32"
  | .f64 => "f64"

def cName : Primitive → String
  | .void => "void"
  | .bool => "bool"
  | .i8 => "int8_t"
  | .i16 => "int16_t"
  | .i32 => "int32_t"
  | .i64 => "int64_t"
  | .u8 => "uint8_t"
  | .u16 => "uint16_t"
  | .u32 => "uint32_t"
  | .u64 => "uint64_t"
  | .isize => "intptr_t"
  | .usize => "uintptr_t"
  | .f32 => "float"
  | .f64 => "double"

/-- The primitive of a spelling in either language. -/
def ofSpelling? (name : String) : Option Primitive :=
  (all.find? (·.native == name)).or (all.find? (·.cName == name))

@[simp] theorem mem_all (p : Primitive) : p ∈ all := by cases p <;> decide

@[simp] theorem ofSpelling?_native (p : Primitive) : ofSpelling? p.native = some p := by
  cases p <;> decide

@[simp] theorem ofSpelling?_cName (p : Primitive) : ofSpelling? p.cName = some p := by
  cases p <;> decide

end Primitive

end CInterface.Source
