import StreamMachine.Instruction.Panic
import StreamMachine.Script
import StreamMachine.Text.Quoted

/-! Operands as an instruction carries them, and the accessors by which an instruction kind insists
on the operand it needs. -/
namespace StreamMachine

/-- A blob handle: the name it was made with, and how many were made with it before. -/
structure Handle where
  name : String
  turn : Nat
  deriving DecidableEq, Repr

/-- Payload of an operand for an instruction kind defined elsewhere. -/
inductive Payload where
  | word (value : UInt32)
  | string (value : String)
  deriving DecidableEq, Repr

/-- The value of a payload that is of the given type. -/
def Payload.as? : (type : PayloadType) → Payload → Option type.Value
  | .u32, .word value => some value
  | .string, .string value => some value
  | _, _ => none

inductive Operand where
  | write (handle : Handle) (callback : List Action)
  | read (handle : Handle) (callback : List Action)
  | lazyReference (handle : Handle) (lazyName : String)
  | custom (payload : Payload)

/-- What a callback may do with the blob it is lent. -/
inductive AccessMode where
  | write
  | read
  deriving DecidableEq, Repr

namespace Operand

def kind : Operand → OperandKind
  | write .. => .write
  | read .. => .read
  | lazyReference .. => .lazyReference
  | custom _ => .custom

def debugText : Operand → String
  | write handle _ => "WriteBlobArgCb \x7b blob: " ++ Text.quote handle.name ++ ", .. \x7d"
  | read handle _ => "ReadBlobArgCb \x7b blob: " ++ Text.quote handle.name ++ ", .. \x7d"
  | lazyReference handle lazyName => "LazyReference \x7b blob: " ++ Text.quote handle.name
      ++ ", lazy_blob_name: " ++ Text.quote lazyName ++ " \x7d"
  | custom _ => "Custom(..)"

def size : Operand → Nat
  | write _ callback | read _ callback => actionsSize callback + 1
  | _ => 1

/-- The handle and the callback of an operand for the given mode. -/
def expectCallback (mode : AccessMode) (instruction : String) (operand : Operand) :
    Except Violation (Handle × List Action) :=
  match mode, operand with
  | .write, write handle callback => .ok (handle, callback)
  | .read, read handle callback => .ok (handle, callback)
  | .write, other => .error (.wrongOperand instruction .write other.kind)
  | .read, other => .error (.wrongOperand instruction .read other.kind)

def expectLazyReference (instruction : String) (operand : Operand) :
    Except Violation (Handle × String) :=
  match operand with
  | lazyReference handle lazyName => .ok (handle, lazyName)
  | other => .error (.wrongOperand instruction .lazyReference other.kind)

/-- The payload, if it is of the given type. -/
def expectPayload (type : PayloadType) (instruction : String) (operand : Operand) :
    Except Violation type.Value :=
  match operand with
  | custom payload =>
    match payload.as? type with
    | some value => .ok value
    | none => .error (.wrongPayload instruction type none)
  | other => .error (.wrongPayload instruction type (some other.kind))

end Operand

end StreamMachine
