/-! The eight element types an engine stores, the numbers and names it knows them by, and how many
bytes an element takes. -/

namespace ScopedTensor

inductive ElementType where
  | f32 | f64 | f16 | u8 | i32 | i8 | i64 | bool
  deriving DecidableEq, Repr, Inhabited

namespace ElementType

def all : List ElementType := [f32, f64, f16, u8, i32, i8, i64, bool]

theorem mem_all (t : ElementType) : t ∈ all := by cases t <;> decide

def bytes : ElementType → Nat
  | f16 => 2
  | f32 | i32 => 4
  | f64 | i64 => 8
  | u8 | i8 | bool => 1

theorem bytes_pos (t : ElementType) : 0 < t.bytes := by cases t <;> decide

def storageBytes (t : ElementType) (n : Nat) : Nat := t.bytes * n

def isFloat : ElementType → Bool
  | f16 | f32 | f64 => true
  | _ => false

def isInteger : ElementType → Bool
  | u8 | i8 | i32 | i64 => true
  | _ => false

def code : ElementType → Int
  | f32 => 0
  | f64 => 1
  | f16 => 2
  | u8 => 3
  | i32 => 4
  | i8 => 5
  | i64 => 6
  | bool => 7

def ofCode? (c : Int) : Option ElementType := all.find? fun t => t.code == c

theorem ofCode?_code (t : ElementType) : ofCode? t.code = some t := by cases t <;> decide

def name : ElementType → String
  | f32 => "float32"
  | f64 => "float64"
  | f16 => "float16"
  | u8 => "uint8"
  | i32 => "int32"
  | i8 => "int8"
  | i64 => "int64"
  | bool => "bool"

def tag : ElementType → String
  | f32 => "f32"
  | f64 => "f64"
  | f16 => "f16"
  | u8 => "u8"
  | i32 => "i32"
  | i8 => "i8"
  | i64 => "i64"
  | bool => "bool"

def label : ElementType → String
  | f32 => "F32"
  | f64 => "F64"
  | f16 => "F16"
  | u8 => "U8"
  | i32 => "I32"
  | i8 => "I8"
  | i64 => "I64"
  | bool => "Bool"

def ofTag? (s : String) : Option ElementType := all.find? fun t => t.tag == s

end ElementType
end ScopedTensor
