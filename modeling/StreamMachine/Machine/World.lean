import StreamMachine.Reply
import StreamMachine.Store
import StreamMachine.Stream
import StreamMachine.Trace

/-! What all threads share: registry, streams, store, the names a session has given, and the gates
that have been signalled. -/
namespace StreamMachine

/-- The names by which commands call handles and storages. -/
structure Directory where
  handles : List (String × Handle) := []
  storages : List (String × StorageId) := []

structure World where
  registry : Registry
  streams : List Stream
  store : Store := {}
  directory : Directory := {}
  signals : List String := []

namespace World

/-- A machine with one idle stream for each entry of the configuration. -/
def create (config : MachineConfig) (registry : Registry) : Except WiringError World :=
  match config.validate with
  | .error error => .error (.invalidConfig error)
  | .ok () => .ok {
      registry := registry
      streams := config.streams.map fun s => { category := s.category, device := s.device } }

def createdNotice (w : World) : Notice := .machineCreated w.streams.length w.registry.size

/-- Position of the stream of a category. -/
def streamOf? (w : World) (category : StreamCategory) : Option Nat :=
  w.streams.findIdx? fun s => s.category == category

def updateStream (w : World) (i : Nat) (f : Stream → Stream) : World :=
  { w with streams := w.streams.modify i f }

def withStore (w : World) (store : Store) : World := { w with store := store }

/-- Category of the stream at a position; positions come from the machine itself. -/
def categoryAt (w : World) (i : Nat) : StreamCategory :=
  (w.streams[i]?).elim .host (·.category)

def deviceAt (w : World) (i : Nat) : UInt32 := (w.streams[i]?).elim 0 (·.device)

def pending (w : World) : Nat := w.streams.foldr (fun s n => s.pending + n) 0

def debugText (w : World) : String :=
  "VirtualMachine \x7b streams: [" ++ Registry.commaList (w.streams.map (·.debugText))
    ++ s!"], instruction_types: {w.registry.size} \x7d"

end World

end StreamMachine
