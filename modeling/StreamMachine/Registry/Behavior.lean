import StreamMachine.Instruction.Operand

/-! Behavior of an instruction kind: the stream category it asks for, and the moves of its two
phases. -/
namespace StreamMachine

/-- What a move reports of the instruction it belongs to. -/
inductive Query where
  | nameAndStatus
  | operandKind
  | message
  | word
  | string
  /-- Length of a string payload in UTF-8 bytes. -/
  | stringSize
  deriving DecidableEq, Repr

inductive Move where
  | report (what : String) (query : Query)
  | panic (message : String)
  /-- Drains the stream the instruction runs on, and reports what came of it. -/
  | drainOwn
  | issue (command : Command)
  /-- Lends the operand's blob to the operand's callback; the category is the one the kind is
  bound to, as opposed to the one of the stream. -/
  | lendBlob (mode : AccessMode) (bound : StreamCategory)
  /-- Rebinds the operand's handle to the storage published under the operand's lazy name. -/
  | bindPublished (bound : StreamCategory)

structure Behavior where
  /-- The answer when the behavior is asked for its category for the n-th time, from 0. -/
  category : Nat → Except Panic StreamCategory
  infer : List Move
  compute : List Move

namespace Behavior

def moves (behavior : Behavior) : Phase → List Move
  | .infer => behavior.infer
  | .compute => behavior.compute

def size (behavior : Behavior) : Nat :=
  let moveSize : Move → Nat
    | .issue command => command.size + 1
    | _ => 1
  (behavior.infer ++ behavior.compute).foldr (fun move n => moveSize move + n) 0

/-- A behavior that always names the same category. -/
def fixed (category : StreamCategory) (infer compute : List Move) : Behavior :=
  ⟨fun _ => .ok category, infer, compute⟩

/-- Lets a callback write, or only read, the operand's blob. The blob exists already, so there is
nothing to infer. -/
def lending (mode : AccessMode) (category : StreamCategory) : Behavior :=
  fixed category [] [.lendBlob mode category]

def lazyReference (category : StreamCategory) : Behavior :=
  fixed category [] [.bindPublished category]

end Behavior

/-- Instruction kinds that can be registered under a name of choice: the built-in ones, and probes,
which report what they see of their own execution. -/
inductive Kind where
  | write
  | read
  | lazyReference
  | noop
  | record
  /-- A record that names another category each time but the first. -/
  | flip
  | appendWord
  | echoString
  | needOperand
  | panicInfer
  | panicCompute
  | drain
  deriving DecidableEq, Repr

namespace Kind

def recordInfer : List Move := [.report "infer" .nameAndStatus]

def recordCompute : List Move := [.report "compute" .nameAndStatus]

/-- The behavior of a kind for a category; the name is the one it is registered under. -/
def behavior (kind : Kind) (name : String) (category : StreamCategory) : Behavior :=
  match kind with
  | write => .lending .write category
  | read => .lending .read category
  | lazyReference => .lazyReference category
  | noop => .fixed category [] []
  | record => .fixed category recordInfer recordCompute
  | flip => ⟨fun n => .ok (if n = 0 then category else .host), recordInfer, recordCompute⟩
  | appendWord => .fixed category [] [.report "append" .word]
  | echoString => .fixed category [.report "infer" .stringSize] [.report "echo" .string]
  | needOperand => .fixed category [.report "infer" .operandKind] [.report "compute" .message]
  | panicInfer => .fixed category [.panic s!"boom in infer of {name}"] []
  | panicCompute => .fixed category [] [.panic s!"boom in compute of {name}"]
  | drain => .fixed category [] [.drainOwn]

end Kind

end StreamMachine
