import StreamMachine.Category

/-! Element types of a blob. -/
namespace StreamMachine

inductive DataType where
  | f32
  | f64
  | i32
  | i64
  | u8
  deriving DecidableEq, Repr

namespace DataType

def all : List DataType := [f32, f64, i32, i64, u8]

/-- Bytes per element. -/
def byteWidth : DataType → Nat
  | f32 | i32 => 4
  | f64 | i64 => 8
  | u8 => 1

def tag : DataType → String
  | f32 => "f32"
  | f64 => "f64"
  | i32 => "i32"
  | i64 => "i64"
  | u8 => "u8"

def debugText : DataType → String
  | f32 => "F32"
  | f64 => "F64"
  | i32 => "I32"
  | i64 => "I64"
  | u8 => "U8"

def ofTag? (tag : String) : Option DataType := all.find? (·.tag == tag)

/-- Reads a tag written exactly. -/
def parse (text : String) : Except TagError DataType :=
  match ofTag? text with
  | some dataType => .ok dataType
  | none => .error (.unknownDataType text)

end DataType

end StreamMachine
