/-!
# Scalars

The primitive types and the kinds of values they stand for in schemas.
-/

namespace ApiDecl

/-- The kind of a scalar value in schemas. -/
inductive ScalarKind where
  /-- A whole number. -/
  | integer
  /-- A number. -/
  | number
  /-- A text. -/
  | string
  /-- A truth value. -/
  | boolean
  deriving Repr, DecidableEq, Inhabited

/-- The name of a kind in schemas. -/
def ScalarKind.name : ScalarKind → String
  | integer => "integer"
  | number => "number"
  | string => "string"
  | boolean => "boolean"

/-- A primitive type. -/
inductive Scalar where
  /-- A signed whole number of 8 bits. -/
  | i8
  /-- A signed whole number of 16 bits. -/
  | i16
  /-- A signed whole number of 32 bits. -/
  | i32
  /-- A signed whole number of 64 bits. -/
  | i64
  /-- A signed whole number of 128 bits. -/
  | i128
  /-- A signed whole number of the size of a pointer. -/
  | isize
  /-- A byte. -/
  | u8
  /-- An unsigned whole number of 16 bits. -/
  | u16
  /-- An unsigned whole number of 32 bits. -/
  | u32
  /-- An unsigned whole number of 64 bits. -/
  | u64
  /-- An unsigned whole number of 128 bits. -/
  | u128
  /-- An unsigned whole number of the size of a pointer. -/
  | usize
  /-- A floating-point number of 32 bits. -/
  | f32
  /-- A floating-point number of 64 bits. -/
  | f64
  /-- An owned text. -/
  | string
  /-- A borrowed text. -/
  | str
  /-- A character. -/
  | char
  /-- A truth value. -/
  | bool
  deriving Repr, DecidableEq, Inhabited

namespace Scalar

/-- All scalars. -/
def all : List Scalar :=
  [i8, i16, i32, i64, i128, isize, u8, u16, u32, u64, u128, usize, f32, f64, string, str, char,
    bool]

/-- The name of a scalar in type expressions. -/
def name : Scalar → String
  | i8 => "i8"
  | i16 => "i16"
  | i32 => "i32"
  | i64 => "i64"
  | i128 => "i128"
  | isize => "isize"
  | u8 => "u8"
  | u16 => "u16"
  | u32 => "u32"
  | u64 => "u64"
  | u128 => "u128"
  | usize => "usize"
  | f32 => "f32"
  | f64 => "f64"
  | string => "String"
  | str => "str"
  | char => "char"
  | bool => "bool"

/-- The scalar with a given name. -/
def ofName? (name : String) : Option Scalar := all.find? fun s => s.name == name

/-- The kind of values that a scalar stands for. -/
def kind : Scalar → ScalarKind
  | i8 | i16 | i32 | i64 | i128 | isize | u8 | u16 | u32 | u64 | u128 | usize => .integer
  | f32 | f64 => .number
  | string | str | char => .string
  | bool => .boolean

end Scalar

end ApiDecl
