import StreamMachine.Session.Machine

/-! Sessions on a single operand: what it is, and what an instruction kind that insists on an
operand of its own gets to see. -/
namespace StreamMachine

/-- An operand that an instruction kind may insist on. -/
inductive Expectation where
  | callback (mode : AccessMode)
  | lazyReference
  | payload (type : PayloadType)
  deriving DecidableEq, Repr

namespace Operand

/-- The names or the value in the operand, if it is the expected one. -/
def expect (instruction : String) (operand : Operand) : Expectation → Except Violation Reply
  | .callback mode =>
    (operand.expectCallback mode instruction).map fun found => .text found.1.name
  | .lazyReference =>
    (operand.expectLazyReference instruction).map fun found => .texts [found.1.name, found.2]
  | .payload type => (operand.expectPayload type instruction).map (.payload type)

def meets (instruction : String) (operand : Operand) (expectation : Expectation) : Reply :=
  match operand.expect instruction expectation with
  | .ok reply => reply
  | .error violation => .panicked (.violation violation)

end Operand

/-- The operand that a program writes after the commands that make its blobs. -/
def operandAfter (setup : List Command) (spec : OperandSpec) : Except Panic Operand := do
  let w ← World.prepare { registry := .empty, streams := [] } setup
  w.operand spec

end StreamMachine
