import StreamMachine.Machine.World

/-! Threads of control. A thread is a stack of frames, the innermost first, that either runs its
innermost frame, hands a reply to it, or unwinds through it. -/
namespace StreamMachine

/-- Where a drain of a stream stands. -/
inductive DrainPoint where
  /-- About to try for the stream's guard. -/
  | enter
  /-- Holds the guard and is about to take the next message. -/
  | take
  /-- Holds the guard while an instruction runs in the frames above. -/
  | execute
  /-- Has found the queue empty and is about to give up the guard. -/
  | leave
  /-- Has given up the guard and is about to look at the queue once more. -/
  | recheck
  deriving DecidableEq, Repr

/-- The blob a callback is lent, and the device it is lent on. -/
structure Accessor where
  storage : StorageId
  mode : AccessMode
  category : StreamCategory
  device : UInt32
  deriving DecidableEq, Repr

inductive Frame where
  | command (command : Command)
  /-- Drains the streams that are left; knows how many instructions ran in the others. -/
  | schedule (left : List Nat) (total : Nat)
  | drain (stream : Nat) (point : DrainPoint) (executed : Nat)
  /-- An instruction with the phases it has yet to go through. -/
  | run (instruction : Instruction) (phases : List Phase)
  /-- A phase under way with the moves that are left. -/
  | phase (instruction : Instruction) (phase : Phase) (moves : List Move)
  /-- Waits for the lock of the storage that a callback is to be lent. -/
  | borrow (accessor : Accessor) (actions : List Action)
  /-- A callback under way with the actions that are left; holds the lock. -/
  | callback (accessor : Accessor) (actions : List Action)
  | action (accessor : Accessor) (action : Action)
  /-- Logs the reply it is handed. -/
  | log (category : StreamCategory) (what : String)
  /-- Logs the outcome of a drain that the instruction at hand made of its own stream. -/
  | logDrain (stream : Nat)
  /-- Turns a panic into a reply. -/
  | catching
  /-- A helper thread, which the one below waits for; keeps the spans of that one. -/
  | helper (spans : List Span)
  /-- Waits for drains on threads of their own. -/
  | join (threads : List Nat)

inductive Control where
  | run
  | reply (reply : Reply)
  | unwind (panic : Panic)

structure Thread where
  frames : List Frame
  control : Control := .run
  /-- Instructions entered on this thread and not yet left, the innermost first. -/
  spans : List Span := []

namespace Thread

def ofCommand (command : Command) : Thread := { frames := [.command command] }

/-- A thread that drains one stream. -/
def worker (stream : Nat) : Thread := { frames := [.drain stream .enter 0] }

/-- The outcome of a thread that has no frames left. -/
def outcome? (t : Thread) : Option (Except Panic Reply) :=
  match t.frames, t.control with
  | [], .reply reply => some (.ok reply)
  | [], .unwind panic => some (.error panic)
  | _, _ => none

end Thread

/-- What a run shows of itself, besides the state it ends in. -/
inductive Occurrence where
  | logged (category : StreamCategory) (what : String) (reply : Reply)
  | traced (event : Event)
  | accepted (stream : Nat) (message : Message)
  /-- A drain has taken a message off the queue. -/
  | started (stream : Nat) (message : Message)
  | began (stream : Nat) (phase : Phase) (status : Status)
  | returned (stream : Nat) (phase : Phase)
  | aborted (stream : Nat) (phase : Phase)
  /-- Both phases of the instruction have returned. -/
  | completed (stream : Nat)
  /-- A drain has replied with the number of instructions it ran. -/
  | drained (stream executed : Nat)
  /-- A drain has unwound after the given number of instructions. -/
  | abandoned (stream executed : Nat)

end StreamMachine
