import StreamMachine.Instruction.Panic
import StreamMachine.Instruction.Operand

/-! Diagnostic events: what the machine reports while it works, and inside which instructions. -/
namespace StreamMachine

inductive Level where
  | error
  | warn
  | info
  | debug
  | trace
  deriving DecidableEq, Repr

namespace Level

/-- Verbosity, from 1 for errors. -/
def rank : Level → Nat
  | error => 1
  | warn => 2
  | info => 3
  | debug => 4
  | trace => 5

def display : Level → String
  | error => "ERROR"
  | warn => "WARN"
  | info => "INFO"
  | debug => "DEBUG"
  | trace => "TRACE"

end Level

/-- An instruction in flight, as events show it. -/
structure Span where
  instruction : String
  category : StreamCategory
  deriving DecidableEq, Repr

/-- What an event reports. -/
inductive Notice where
  | registered (name : String) (id : Nat) (category : StreamCategory)
  | machineCreated (streams kinds : Nat)
  | enqueued (instruction : String) (category : StreamCategory) (device : UInt32)
  | lending (mode : AccessMode) (bound : StreamCategory) (blob : String)
  | rebinding (bound : StreamCategory) (blob lazyName : String)
  | violated (violation : Violation)
  deriving DecidableEq, Repr

/-- Value of a field: a text, a tag that is shown as it is, or a number. -/
inductive FieldValue where
  | text (value : String)
  | shown (value : String)
  | count (value : Nat)
  deriving DecidableEq, Repr

namespace Notice

def level : Notice → Level
  | violated _ => .error
  | machineCreated .. => .info
  | lending .. => .trace
  | _ => .debug

/-- The part of the machine that speaks. -/
def target : Notice → String
  | registered .. => "eager_vm::registry"
  | machineCreated .. => "eager_vm::vm"
  | enqueued .. => "eager_vm::stream"
  | lending .. => "eager_vm::instructions::access_blob_by_callback"
  | rebinding .. => "eager_vm::instructions::lazy_reference"
  | violated _ => "eager_vm::error"

def message : Notice → String
  | registered .. => "registered instruction type"
  | machineCreated .. => "virtual machine created"
  | enqueued .. => "enqueued instruction"
  | lending .write .. => "running write callback"
  | lending .read .. => "running read callback"
  | rebinding .. => "rebinding eager blob to lazy storage"
  | violated violation => "instruction contract violated: " ++ violation.message

def fields : Notice → List (String × FieldValue)
  | registered name id category =>
    [("name", .text name), ("id", .count id), ("stream", .shown category.tag)]
  | machineCreated streams kinds =>
    [("streams", .count streams), ("instruction_types", .count kinds)]
  | enqueued instruction category device =>
    [("instruction", .text instruction), ("stream", .shown category.tag),
      ("device", .count device.toNat)]
  | lending _ bound blob => [("stream", .text bound.tag), ("blob", .text blob)]
  | rebinding bound blob lazyName =>
    [("stream", .text bound.tag), ("eager_blob", .text blob), ("lazy_blob", .text lazyName)]
  | violated _ => []

end Notice

namespace Span

def name (_ : Span) : String := "instruction"

def level (_ : Span) : Level := .debug

def target (_ : Span) : String := "eager_vm::stream"

def fields (s : Span) : List (String × FieldValue) :=
  [("name", .text s.instruction), ("stream", .shown s.category.tag)]

end Span

/-- A notice with the instructions it was given in, outermost first. -/
structure Event where
  notice : Notice
  spans : List Span := []
  deriving DecidableEq, Repr

end StreamMachine
