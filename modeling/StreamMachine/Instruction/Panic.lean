import StreamMachine.Blob.Basic
import StreamMachine.Config.Basic
import StreamMachine.Instruction.Phase
import StreamMachine.Text.Piece

/-! What can go wrong beyond a callback's own errors: wiring errors, which are returned, and panics,
which unwind. A broken contract between trusted parts is a panic. -/
namespace StreamMachine

inductive OperandKind where
  | write
  | read
  | lazyReference
  | custom
  deriving DecidableEq, Repr

def OperandKind.display : OperandKind → String
  | write => "WriteBlobArgCb"
  | read => "ReadBlobArgCb"
  | lazyReference => "LazyReference"
  | custom => "Custom"

/-- Types of the payloads that custom operands carry. -/
inductive PayloadType where
  | u32
  | u64
  | string
  deriving DecidableEq, Repr

abbrev PayloadType.Value : PayloadType → Type
  | u32 => UInt32
  | u64 => UInt64
  | string => String

def PayloadType.display : PayloadType → String
  | u32 => "u32"
  | u64 => "u64"
  | string => "alloc::string::String"

inductive RegistryError where
  | duplicate (name : String)
  | notFound (name : String)
  deriving DecidableEq, Repr

def RegistryError.message : RegistryError → String
  | duplicate name => s!"instruction type '{name}' already registered"
  | notFound name => s!"instruction type '{name}' not registered"

inductive WiringError where
  | streamMismatch (instruction : String) (expected actual : StreamCategory)
  | noStream (instruction : String) (category : StreamCategory)
  | registry (error : RegistryError)
  | registryInitialized
  | invalidConfig (error : ConfigError)
  deriving DecidableEq, Repr

def WiringError.message : WiringError → String
  | streamMismatch instruction expected actual =>
    s!"instruction '{instruction}' requires a {expected.tag} stream, got a {actual.tag} stream"
  | noStream instruction category =>
    s!"no {category.tag} stream configured for instruction '{instruction}'"
  | registry error => error.message
  | registryInitialized => "global instruction type registry already initialized"
  | invalidConfig error => error.message

inductive Violation where
  | registry (error : RegistryError)
  | noOperand (instruction : String)
  | wrongStatus (instruction : String) (phase : Phase) (status : Status)
  | wrongOperand (instruction : String) (expected actual : OperandKind)
  /-- A custom payload of another type, or an operand of another kind altogether. -/
  | wrongPayload (instruction : String) (expected : PayloadType) (actual : Option OperandKind)
  | unpublished (instruction lazyName : String)
  | registryRequested
  deriving DecidableEq, Repr

def Violation.message : Violation → String
  | registry error => error.message
  | noOperand instruction => s!"instruction '{instruction}' carries no operand"
  | wrongStatus instruction phase status =>
    s!"instruction '{instruction}' cannot {phase.verb} from status {status.display}"
  | wrongOperand instruction expected actual =>
    s!"instruction '{instruction}' expects a {expected.display} operand, got {actual.display}"
  | wrongPayload instruction expected (some actual) =>
    s!"instruction '{instruction}' expects a Custom<{expected.display}> operand, " ++
      s!"got {actual.display}"
  | wrongPayload instruction expected none =>
    s!"instruction '{instruction}' expects a Custom<{expected.display}> operand, " ++
      "got a Custom operand of another type"
  | unpublished instruction lazyName =>
    s!"instruction '{instruction}' references lazy blob '{lazyName}' which no graph has published"
  | registryRequested =>
    "the global instruction type registry was requested while it is being initialized"

inductive Panic where
  | violation (violation : Violation)
  | storage (fault : StorageFault)
  /-- A text is to be cut inside a character. -/
  | piece (fault : Text.PieceFault)
  /-- A panic that host code raises with words of its own. -/
  | raised (message : String)
  deriving DecidableEq, Repr

def Panic.message : Panic → String
  | violation v => v.message
  | storage fault => fault.message
  | piece fault => fault.message
  | raised message => message

end StreamMachine
