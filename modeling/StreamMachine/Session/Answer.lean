import StreamMachine.Machine.Run

/-! What a session shows of one of its steps. -/
namespace StreamMachine

structure LogEntry where
  category : StreamCategory
  what : String
  reply : Reply

def Occurrence.logEntry? : Occurrence → Option LogEntry
  | .logged category what reply => some ⟨category, what, reply⟩
  | _ => none

def Occurrence.event? : Occurrence → Option Event
  | .traced event => some event
  | _ => none

/-- Reply, log and events of a step. There is no reply to a step that never returns. -/
structure Answer where
  reply : Option Reply
  log : List LogEntry := []
  events : List Event := []

/-- A panic is a reply to whoever catches it. -/
def replyOf : Except Panic Reply → Reply
  | .ok reply => reply
  | .error panic => .panicked panic

def Ran.answer (r : Ran) : Answer :=
  ⟨r.outcome.map replyOf, r.seen.filterMap Occurrence.logEntry?,
    r.seen.filterMap Occurrence.event?⟩

/-- Logs of different streams have no order among each other. -/
def Answer.sortLog (a : Answer) : Answer :=
  { a with log := a.log.mergeSort fun x y => x.category.rank ≤ y.category.rank }

def Command.isConcurrent : Command → Bool
  | .scheduleConcurrently => true
  | _ => false

namespace World

/-- Carries out a command of a session. -/
def answer (w : World) (command : Command) : Answer × World :=
  let ran := w.runCommand command
  (if command.isConcurrent then ran.answer.sortLog else ran.answer, ran.world)

end World

end StreamMachine
