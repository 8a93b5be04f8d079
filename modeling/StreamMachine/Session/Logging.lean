import StreamMachine.Logging.Subscriber
import StreamMachine.Session.Machine

/-! Sessions that show what a machine writes to its log. -/
namespace StreamMachine

/-- A session in a process of its own. -/
structure LoggedSession where
  configs : List LoggingConfig
  environment : Option String := none
  /-- The machine to watch and what it is to do. -/
  machine : Option (MachineSetup × List Command) := none

/-- What stands behind the first blank, which is nothing if there is no blank. -/
def withoutFirstWord (line : String) : String :=
  String.ofList ((line.toList.dropWhile (· != ' ')).drop 1)

/-- A carriage return at the end of a line belongs to the line break. -/
def withoutReturn (line : String) : String :=
  let cs := line.toList
  if cs.getLast? = some '\r' then String.ofList cs.dropLast else line

/-- The lines of an event, each without its first word, which is the time stamp on the first. -/
def linesOf (text : String) : List String :=
  match (text.splitOn "\n").map withoutReturn with
  | [] => []
  | line :: more => line :: more.map withoutFirstWord

/-- What a session comes to: the outcome of each configuration, unless something panicked outside
the commands, and the lines that were written by then. -/
structure LoggedOutcome where
  installed : Except Panic (List (Except LoggingError Unit))
  lines : List String

namespace LoggedSession

def events (s : LoggedSession) : List Event :=
  match s.machine with
  | some (setup, commands) => setup.inNewProcess.events commands
  | none => []

/-- The panic that building the machine ends in, if it does. -/
def panic? (s : LoggedSession) : Option Panic :=
  s.machine.bind fun (setup, _) =>
    match setup.inNewProcess.world.result with
    | .ok _ => none
    | .error panic => some panic

def outcome (s : LoggedSession) : LoggedOutcome :=
  match Subscriber.installAll s.environment none s.configs with
  | .error panic => ⟨.error panic, []⟩
  | .ok (outcomes, subscriber) =>
    let lines := (subscriber.elim [] (·.texts s.events)).flatMap linesOf
    ⟨s.panic?.elim (.ok outcomes) .error, lines⟩

end LoggedSession

end StreamMachine
