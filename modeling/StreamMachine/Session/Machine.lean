import StreamMachine.Registry.Noted
import StreamMachine.Session.Answer

/-! Sessions on a machine, and on a single instruction outside any drain. -/
namespace StreamMachine

inductive RegistrySource where
  | builtin
  | empty
  /-- The process-wide registry, which holds the built-in kinds already. -/
  | global
  deriving DecidableEq, Repr

structure MachineSetup where
  config : MachineConfig := {}
  source : RegistrySource := .builtin
  /-- Kinds to register on top, unless the registry is the process-wide one. -/
  registrations : List (String × Behavior) := []

namespace MachineSetup

def registry (setup : MachineSetup) : Noted Registry :=
  match setup.source with
  | .global => pure Registry.builtin
  | .empty => Registry.registerAllNoted setup.registrations .empty
  | .builtin => Registry.builtinNoted >>= Registry.registerAllNoted setup.registrations

/-- The setup in a new process, which makes its process-wide registry on the first use. -/
def inNewProcess (setup : MachineSetup) : MachineSetup :=
  match setup.source with
  | .global => { setup with source := .builtin, registrations := [] }
  | _ => setup

/-- Builds the registry, then the machine on it. -/
def world (setup : MachineSetup) : Noted (Except WiringError World) := do
  let registry ← setup.registry
  match World.create setup.config registry with
  | .error error => pure (.error error)
  | .ok w => ⟨[w.createdNotice], .ok (.ok w)⟩

end MachineSetup

namespace World

/-- The answers to commands in order, each with the streams as they are after it. -/
def answers (w : World) : List Command → List (Answer × List Stream)
  | [] => []
  | command :: rest =>
    let (answer, w) := w.answer command
    (answer, w.streams) :: w.answers rest

/-- All events that the commands give rise to. -/
def eventsOf (w : World) (commands : List Command) : List Event :=
  (w.answers commands).flatMap fun a => a.1.events

/-- The world after commands whose answers are of no interest, unless one of them panics. -/
def prepare (w : World) (commands : List Command) : Except Panic World :=
  commands.foldlM (fun w command => do
    let (answer, w) := w.answer command
    match answer.reply with
    | some (.panicked panic) => throw panic
    | _ => pure w) w

end World

/-- Events of a session, those of building its machine first. -/
def MachineSetup.events (setup : MachineSetup) (commands : List Command) : List Event :=
  let made := setup.world
  made.notices.map (⟨·, []⟩) ++
    match made.result with
    | .ok (.ok w) => w.eventsOf commands
    | _ => []

/-- Calls on one live instruction. -/
inductive InstructionCall where
  | infer
  | compute
  | run
  | operand
  | message
  | debug
  | device
  | command (command : Command)

namespace Instruction

def ofPhase (i : Instruction) (w : World) (phase : Phase) : Answer × Instruction × World :=
  let ran := w.runPhase i phase
  let i := match ran.outcome with
    | some (.ok _) => i.advance phase
    | _ => i
  (ran.answer, i, ran.world)

/-- Both phases in order; a panic in the first ends the run. -/
def both (i : Instruction) (w : World) : Answer × Instruction × World :=
  let (first, i, w) := i.ofPhase w .infer
  if i.status = .inferred ∧ first.reply matches some .ok then
    let (second, i, w) := i.ofPhase w .compute
    (⟨second.reply, first.log ++ second.log, first.events ++ second.events⟩, i, w)
  else (first, i, w)

def asked : Except Violation Reply → Answer
  | .ok reply => { reply := some reply }
  | .error v => { reply := some (.panicked (.violation v)), events := [⟨.violated v, []⟩] }

def kindReply (i : Instruction) : Reply :=
  i.message.operand.elim .nothing fun operand => .text operand.kind.display

def deviceReply (i : Instruction) (w : World) : Reply :=
  match w.streams[i.stream]? with
  | none => .nothing
  | some s => .items [.text s.category.tag, .count s.device.toNat, .count s.completed,
      .count s.pending, .flag s.executing]

def call (i : Instruction) (w : World) : InstructionCall → Answer × Instruction × World
  | .infer => i.ofPhase w .infer
  | .compute => i.ofPhase w .compute
  | .run => i.both w
  | .operand => (asked (i.operand.map fun operand => .text operand.kind.display), i, w)
  | .message =>
    (asked (.ok (.items [.text i.name, i.kindReply, .text i.message.debugText])), i, w)
  | .debug => (asked (.ok (.text (i.debugText (w.categoryAt i.stream)))), i, w)
  | .device => (asked (.ok (i.deviceReply w)), i, w)
  | .command command =>
    let (answer, w) := w.answer command
    (answer, i, w)

/-- The answers to calls in order, each with the status after it. -/
def calls (i : Instruction) (w : World) : List InstructionCall → List (Answer × Status)
  | [] => []
  | call :: rest =>
    let (answer, i, w) := i.call w call
    (answer, i.status) :: i.calls w rest

end Instruction

/-- An instruction built straight on a stream, whatever that stream's category. -/
structure InstructionSetup where
  setup : List Command
  stream : StreamConfig
  name : String
  behavior : Behavior
  operand : Option OperandSpec

namespace InstructionSetup

def build (s : InstructionSetup) : Except Panic (Instruction × World) := do
  let (descriptor, registry) ← Registry.empty.register s.name s.behavior
  let stream : Stream := { category := s.stream.category, device := s.stream.device }
  let w ← World.prepare { registry := registry, streams := [stream] } s.setup
  pure (⟨⟨descriptor, ← w.operand? s.operand⟩, 0, .created⟩, w)

end InstructionSetup

end StreamMachine
