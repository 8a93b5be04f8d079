import StreamMachine.Registry.Noted

/-! Sessions on a registry. -/
namespace StreamMachine

inductive RegistryCommand where
  | register (name : String) (behavior : Behavior)
  | tryRegister (name : String) (behavior : Behavior)
  | lookup (name : String)
  | tryLookup (name : String)
  | get (id : Nat)
  | contains (name : String)
  | names
  | debug

inductive RegistryReply where
  | nothing
  | flag (value : Bool)
  | text (value : String)
  | names (values : List String)
  /-- A descriptor, whether it is the one first seen under its name, and what its behavior answers
  when it is asked for its category once more. -/
  | descriptor (descriptor : Descriptor) (same : Bool) (answer : Except Panic StreamCategory)
  | failed (error : RegistryError)
  | panicked (panic : Panic)

structure RegistryAnswer where
  reply : RegistryReply
  notices : List Notice
  registry : Registry

structure RegistrySession where
  registry : Registry
  /-- The first descriptor seen under each name, by position. -/
  seen : List (String × Nat) := []
  /-- How often the behavior at a position has been asked since it was registered. -/
  asked : Nat → Nat := fun _ => 0

namespace RegistrySession

def withRegistry (s : RegistrySession) (registry : Registry) : RegistrySession :=
  { s with registry := registry }

/-- Shows a descriptor, which asks its behavior once. -/
def view (s : RegistrySession) (d : Descriptor) : RegistryReply × RegistrySession :=
  let first := (s.seen.lookup d.name).getD d.id
  let asked := s.asked d.id + 1
  (.descriptor d (first == d.id) (d.behavior.category asked),
    { s with
      seen := if (s.seen.lookup d.name).isSome then s.seen else (d.name, d.id) :: s.seen
      asked := fun id => if id = d.id then asked else s.asked id })

def unchanged (s : RegistrySession) (reply : RegistryReply) : RegistryReply × RegistrySession :=
  (reply, s)

/-- Shows what a lookup found. -/
def viewFound (s : RegistrySession) : Except RegistryError Descriptor →
    RegistryReply × RegistrySession
  | .ok d => s.view d
  | .error error => s.unchanged (.failed error)

def perform (s : RegistrySession) : RegistryCommand → Noted (RegistryReply × RegistrySession)
  | .register name behavior => do
    let (d, registry) ← s.registry.registerNoted name behavior
    pure ((s.withRegistry registry).view d)
  | .tryRegister name behavior => do
    match ← s.registry.tryRegisterNoted name behavior with
    | .accepted d registry => pure ((s.withRegistry registry).view d)
    | .rejected error => pure (s.unchanged (.failed error))
  | .lookup name =>
    match s.registry.lookup name with
    | .ok d => pure (s.view d)
    | .error v => .violation v
  | .tryLookup name => pure (s.viewFound (s.registry.tryLookup name))
  | .get id =>
    match s.registry.get? id with
    | some d => pure (s.view d)
    | none => pure (s.unchanged .nothing)
  | .contains name => pure (s.unchanged (.flag (s.registry.contains name)))
  | .names => pure (s.unchanged (.names s.registry.names))
  | .debug => pure (s.unchanged (.text s.registry.debugText))

/-- Reply and notices for one command, and the registry after it; a panic changes nothing. -/
def answer (s : RegistrySession) (command : RegistryCommand) : RegistryAnswer × RegistrySession :=
  let made := s.perform command
  match made.result with
  | .ok (reply, s) => (⟨reply, made.notices, s.registry⟩, s)
  | .error panic => (⟨.panicked panic, made.notices, s.registry⟩, s)

def answers (s : RegistrySession) : List RegistryCommand → List RegistryAnswer
  | [] => []
  | command :: rest =>
    let (answer, s) := s.answer command
    answer :: s.answers rest

end RegistrySession

end StreamMachine
