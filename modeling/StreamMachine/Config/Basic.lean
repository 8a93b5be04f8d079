import StreamMachine.Category

/-! Which streams exist and how logging is set up. -/
namespace StreamMachine

structure StreamConfig where
  category : StreamCategory
  device : UInt32 := 0
  deriving DecidableEq, Repr

structure LoggingConfig where
  /-- Filter directives; without them the environment decides, and then the default directive. -/
  directives : Option String := none
  defaultDirective : String := "info"
  includeTargets : Bool := true
  ansi : Bool := true
  deriving DecidableEq, Repr

structure MachineConfig where
  streams : List StreamConfig := [⟨.host, 0⟩, ⟨.cpu, 0⟩]
  logging : LoggingConfig := {}
  deriving DecidableEq, Repr

inductive ConfigError where
  | noStreams
  | repeatedCategory (category : StreamCategory)
  deriving DecidableEq, Repr

def ConfigError.message : ConfigError → String
  | noStreams => "invalid configuration: no streams configured"
  | repeatedCategory category =>
    s!"invalid configuration: stream category '{category.tag}' configured more than once"

/-- The first category that repeats an earlier one, given those already seen. -/
def firstRepeat? (seen : List StreamCategory) : List StreamCategory → Option StreamCategory
  | [] => none
  | c :: rest => if seen.contains c then some c else firstRepeat? (c :: seen) rest

namespace MachineConfig

def categories (config : MachineConfig) : List StreamCategory := config.streams.map (·.category)

/-- Streams are selected by category, so each category may appear once. -/
def validate (config : MachineConfig) : Except ConfigError Unit :=
  if config.streams.isEmpty then .error .noStreams
  else match firstRepeat? [] config.categories with
    | some category => .error (.repeatedCategory category)
    | none => .ok ()

end MachineConfig

end StreamMachine
