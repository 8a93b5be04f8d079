import StreamMachine.Machine.Step

/-! A machine is a world with its threads. Any thread that is not blocked may take the next step; a
run always lets the first of them do so. -/
namespace StreamMachine

structure Machine where
  world : World
  threads : List Thread

namespace Machine

def outcome? (m : Machine) (i : Nat) : Option (Except Panic Reply) :=
  m.threads[i]? >>= Thread.outcome?

/-- The step of the thread at a position. -/
def stepAt? (m : Machine) (i : Nat) : Option (Machine × List Occurrence) := do
  let t ← m.threads[i]?
  let s ← t.step? m.world m.threads.length m.outcome?
  pure (⟨m.world.after s.deed, m.threads.set i s.thread ++ s.spawned⟩, s.seen)

/-- Gives up the wait of a thread at a gate. -/
def expireAt? (m : Machine) (i : Nat) : Option (Machine × List Occurrence) := do
  let t ← m.threads[i]?
  match t.frames, t.control with
  | .action _ (.wait _) :: outer, .run =>
    pure (⟨m.world, m.threads.set i (t.give outer (.flag false))⟩, [])
  | _, _ => none

/-- The first thread that can go on does so; if there is none, the first wait at a gate ends. -/
def next? (m : Machine) : Option (Machine × List Occurrence) :=
  let places := List.range m.threads.length
  places.findSome? m.stepAt? <|> places.findSome? m.expireAt?

/-- Steps until none is left, at most as many as the budget. -/
def run : Nat → Machine → Machine × List Occurrence
  | 0, m => (m, [])
  | budget + 1, m =>
    match m.next? with
    | none => (m, [])
    | some (m, seen) =>
      let (m, rest) := run budget m
      (m, seen ++ rest)

end Machine

namespace World

/-- A number of steps that no program of the given size exceeds, as long as no behavior issues
commands of its own. -/
def budget (w : World) (programSize : Nat) : Nat :=
  let queued := (w.streams.flatMap (·.queue)).foldr (fun m n => m.operand.elim 1 (·.size + 1) + n) 0
  16 * (programSize + queued + 1) * (w.registry.weight + w.streams.length + 4)

end World

/-- What a run from one thread comes to. -/
structure Ran where
  world : World
  /-- None if the thread is blocked for ever. -/
  outcome : Option (Except Panic Reply)
  seen : List Occurrence

namespace World

/-- Runs a thread, and what it starts, to the end. -/
def runThread (w : World) (programSize : Nat) (t : Thread) : Ran :=
  let (m, seen) := Machine.run (w.budget programSize) ⟨w, [t]⟩
  ⟨m.world, m.outcome? 0, seen⟩

def runCommand (w : World) (command : Command) : Ran :=
  w.runThread command.size (.ofCommand command)

/-- Runs one phase of an instruction outside any drain. -/
def runPhase (w : World) (i : Instruction) (phase : Phase) : Ran :=
  w.runThread (i.message.operand.elim 1 (·.size)) { frames := [.run i [phase]] }

end World

end StreamMachine
