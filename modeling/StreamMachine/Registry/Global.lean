import StreamMachine.Machine.World
import StreamMachine.Registry.Noted

/-! The process-wide registry. It is made once, on first use or by a set-up that adds kinds
to the built-in ones, and never changes after that. -/
namespace StreamMachine

/-- One action of the code that extends the registry while it is being made. -/
inductive Extension where
  | register (name : String) (behavior : Behavior)
  | tryRegister (name : String) (behavior : Behavior)
  | request
  /-- Requests the registry and catches the panic. -/
  | tryRequest
  | machine (config : MachineConfig)
  /-- Makes a machine over the registry and catches the panic. -/
  | tryMachine (config : MachineConfig)
  | panic (message : String)

inductive ExtensionReply where
  | id (value : Nat)
  | names (values : List String)
  | machine (kinds streams : Nat)
  | failed (error : WiringError)
  | panicked (panic : Panic)

structure GlobalRegistry where
  published : Option Registry := none
  /-- Set while an extension runs. -/
  extending : Bool := false

namespace GlobalRegistry

/-- The registry, made of the built-in kinds on first use. While an extension runs there is none to
be had. -/
def request (g : GlobalRegistry) : Except Panic Registry × GlobalRegistry :=
  if g.extending then (.error (.violation .registryRequested), g)
  else match g.published with
    | some registry => (.ok registry, g)
    | none => (.ok Registry.builtin, { g with published := some Registry.builtin })

/-- Sizes of a machine over a registry: its kinds and its streams. -/
def machineSizes (config : MachineConfig) (registry : Registry) : Except WiringError (Nat × Nat) :=
  (World.create config registry).map fun w => (registry.size, w.streams.length)

/-- A machine over the registry, as the sizes of both; the registry is requested first. -/
def machine (g : GlobalRegistry) (config : MachineConfig) :
    Except Panic (Except WiringError (Nat × Nat)) × GlobalRegistry :=
  let (found, g) := g.request
  (found.map (machineSizes config), g)

def machineReply : Except WiringError (Nat × Nat) → ExtensionReply
  | .ok (kinds, streams) => .machine kinds streams
  | .error error => .failed error

/-- The reply of a request that may have panicked. -/
def caught {α : Type} (reply : α → ExtensionReply) : Except Panic α → ExtensionReply
  | .ok a => reply a
  | .error panic => .panicked panic

def namesReply (registry : Registry) : ExtensionReply := .names registry.names

/-- One action of an extension on the registry under construction. -/
def extend (g : GlobalRegistry) (r : Registry) :
    Extension → Except Panic (ExtensionReply × Registry) × GlobalRegistry
  | .register name behavior => ((r.register name behavior).map fun x => (.id x.1.id, x.2), g)
  | .tryRegister name behavior =>
    ((r.tryRegister name behavior).map fun
      | .accepted d r => (.id d.id, r)
      | .rejected error => (.failed (.registry error), r), g)
  | .request =>
    let (found, g) := g.request
    (found.map fun registry => (namesReply registry, r), g)
  | .tryRequest =>
    let (found, g) := g.request
    (.ok (caught namesReply found, r), g)
  | .machine config =>
    let (made, g) := g.machine config
    (made.map fun sizes => (machineReply sizes, r), g)
  | .tryMachine config =>
    let (made, g) := g.machine config
    (.ok (caught machineReply made, r), g)
  | .panic message => (.error (.raised message), g)

/-- Actions in order until one panics. -/
def extendAll (g : GlobalRegistry) (r : Registry) :
    List Extension → Except Panic (List ExtensionReply × Registry) × GlobalRegistry
  | [] => (.ok ([], r), g)
  | e :: rest =>
    match g.extend r e with
    | (.error panic, g) => (.error panic, g)
    | (.ok (reply, r), g) =>
      let (extended, g) := g.extendAll r rest
      (extended.map fun x => (reply :: x.1, x.2), g)

/-- Enters an extension, unless there is a registry. -/
def enter (g : GlobalRegistry) : Except WiringError GlobalRegistry :=
  match g.published with
  | some _ => .error .registryInitialized
  | none => .ok { g with extending := true }

def leave (g : GlobalRegistry) : GlobalRegistry := { g with extending := false }

def publish (g : GlobalRegistry) (registry : Registry) : GlobalRegistry :=
  { g with published := some registry }

/-- Makes the registry of the built-in kinds and what the extension adds, unless there is one. An
extension that panics leaves nothing behind. -/
def setUp (g : GlobalRegistry) (extension : List Extension) :
    Except Panic (Except WiringError (Registry × List ExtensionReply)) × GlobalRegistry :=
  match g.enter with
  | .error error => (.ok (.error error), g)
  | .ok entered =>
    match entered.extendAll Registry.builtin extension with
    | (.ok (replies, r), g) => (.ok (.ok (r, replies)), g.leave.publish r)
    | (.error panic, g) => (.error panic, g.leave)

end GlobalRegistry

inductive GlobalCommand where
  | request
  | machine (config : MachineConfig)
  | init (extension : List Extension)

inductive GlobalReply where
  | names (values : List String)
  | machine (kinds streams : Nat)
  | failed (error : WiringError)
  | panicked (panic : Panic)
  /-- The registry that has been made, and what the extension saw. -/
  | made (registry : Registry) (seen : List ExtensionReply)

namespace GlobalReply

def ofRequest : Except Panic Registry → GlobalReply
  | .ok registry => .names registry.names
  | .error panic => .panicked panic

def ofMachine : Except Panic (Except WiringError (Nat × Nat)) → GlobalReply
  | .ok (.ok (kinds, streams)) => .machine kinds streams
  | .ok (.error error) => .failed error
  | .error panic => .panicked panic

def ofSetUp : Except Panic (Except WiringError (Registry × List ExtensionReply)) → GlobalReply
  | .ok (.ok (registry, seen)) => .made registry seen
  | .ok (.error error) => .failed error
  | .error panic => .panicked panic

end GlobalReply

namespace GlobalRegistry

def answer (g : GlobalRegistry) : GlobalCommand → GlobalReply × GlobalRegistry
  | .request =>
    let (found, g) := g.request
    (.ofRequest found, g)
  | .machine config =>
    let (made, g) := g.machine config
    (.ofMachine made, g)
  | .init extension =>
    let (made, g) := g.setUp extension
    (.ofSetUp made, g)

def answers (g : GlobalRegistry) : List GlobalCommand → List GlobalReply
  | [] => []
  | command :: rest =>
    let (reply, g) := g.answer command
    reply :: g.answers rest

end GlobalRegistry

end StreamMachine
