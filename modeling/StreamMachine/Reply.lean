import StreamMachine.Instruction.Panic

/-! Answers of commands and of callback actions. -/
namespace StreamMachine

/-- An error that is returned and not raised. -/
inductive Failure where
  | blob (error : BlobError)
  | wiring (error : WiringError)
  deriving DecidableEq, Repr

def Failure.message : Failure → String
  | blob error => error.message
  | wiring error => error.message

inductive Reply where
  | nothing
  | ok
  | flag (value : Bool)
  | count (value : Nat)
  | text (value : String)
  | words (values : List UInt32)
  | bytes (values : List UInt8)
  | items (values : List Reply)
  | failed (failure : Failure)
  | panicked (panic : Panic)
  | contents (blob : Blob)
  | layout (shape : Shape) (dataType : DataType) (byteSize : Nat)
  /-- What an accessor tells of its blob and of the device it is on. -/
  | accessor (shape : Shape) (dataType : DataType) (byteSize : Nat) (category : StreamCategory)
      (device : UInt32) (published : Nat)
  | stream (category : StreamCategory) (device : UInt32) (debug : String)
  | descriptor (name : String) (id : Nat) (category : StreamCategory) (debug : String)

namespace Reply

/-- The number that a drain replies. -/
def toCount : Reply → Nat
  | count n => n
  | _ => 0

def payload : (type : PayloadType) → type.Value → Reply
  | .u32, value => count value.toNat
  | .u64, value => count value.toNat
  | .string, value => text value

def texts (values : List String) : Reply := items (values.map text)

def ofBlobResult {α : Type} (good : α → Reply) : Except BlobError α → Reply
  | .ok a => good a
  | .error error => failed (.blob error)

end Reply

end StreamMachine
