import StreamMachine.Registry.Basic

/-! Queued messages and live instructions. -/
namespace StreamMachine

structure Message where
  descriptor : Descriptor
  operand : Option Operand

namespace Message

def name (m : Message) : String := m.descriptor.name

def debugText (m : Message) : String :=
  let operand := match m.operand with
    | some operand => "Some(" ++ operand.debugText ++ ")"
    | none => "None"
  "InstructionMsg \x7b descriptor: " ++ m.descriptor.debugText ++ ", operand: " ++ operand
    ++ " \x7d"

end Message

/-- A message that a stream has picked up; the stream is given by its position in the machine. -/
structure Instruction where
  message : Message
  stream : Nat
  status : Status := .created

namespace Instruction

def name (i : Instruction) : String := i.message.name

def behavior (i : Instruction) : Behavior := i.message.descriptor.behavior

/-- The operand the instruction was built with. -/
def operand (i : Instruction) : Except Violation Operand :=
  match i.message.operand with
  | some operand => .ok operand
  | none => .error (.noOperand i.name)

def checkStatus (i : Instruction) (phase : Phase) : Except Violation Unit :=
  if i.status = phase.before then .ok () else .error (.wrongStatus i.name phase i.status)

def advance (i : Instruction) (phase : Phase) : Instruction := { i with status := phase.after }

def debugText (i : Instruction) (category : StreamCategory) : String :=
  "Instruction \x7b name: " ++ Text.quote i.name ++ s!", stream: {category.debugText}"
    ++ s!", status: {i.status.debugText} \x7d"

end Instruction

end StreamMachine
