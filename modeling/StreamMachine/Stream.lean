import StreamMachine.Instruction.Message

/-! A stream: a queue of messages for one device, run one after another. -/
namespace StreamMachine

structure Stream where
  category : StreamCategory
  device : UInt32
  queue : List Message := []
  /-- Held by the one drain that runs the stream. -/
  executing : Bool := false
  /-- Instructions whose two phases have returned. -/
  completed : Nat := 0

namespace Stream

def pending (s : Stream) : Nat := s.queue.length

def push (s : Stream) (m : Message) : Stream := { s with queue := s.queue ++ [m] }

def pop (s : Stream) : Stream := { s with queue := s.queue.tail }

def setExecuting (s : Stream) (executing : Bool) : Stream := { s with executing := executing }

def complete (s : Stream) : Stream := { s with completed := s.completed + 1 }

def debugText (s : Stream) : String :=
  "Stream \x7b category: " ++ s.category.debugText ++ s!", device_id: {s.device.toNat}"
    ++ s!", pending: {s.pending}, completed: {s.completed} \x7d"

end Stream

end StreamMachine
