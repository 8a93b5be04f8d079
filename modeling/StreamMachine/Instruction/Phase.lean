/-! The two phases of an instruction and how far one has come. -/
namespace StreamMachine

inductive Status where
  | created
  | inferred
  | computed
  deriving DecidableEq, Repr

inductive Phase where
  /-- Resolves what has to be known before the effect. -/
  | infer
  /-- Performs the effect. -/
  | compute
  deriving DecidableEq, Repr

def Status.display : Status → String
  | created => "created"
  | inferred => "inferred"
  | computed => "computed"

def Status.debugText : Status → String
  | created => "Created"
  | inferred => "Inferred"
  | computed => "Computed"

namespace Phase

def verb : Phase → String
  | infer => "infer"
  | compute => "compute"

/-- The status in which a phase may start. -/
def before : Phase → Status
  | infer => .created
  | compute => .inferred

/-- The status once a phase has returned. -/
def after : Phase → Status
  | infer => .inferred
  | compute => .computed

end Phase

end StreamMachine
