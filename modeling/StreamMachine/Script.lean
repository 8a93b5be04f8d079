import StreamMachine.Blob.Basic

/-! The programs that host code runs: what a callback does with the blob it is lent, and the
commands by which a session, or a callback in the middle of an instruction, works the machine. Blobs
and storages are called by the names that the session has given them. -/
namespace StreamMachine

/-- Access to a blob through the accessor a callback is lent. -/
inductive Access where
  | writeWords (words : List UInt32)
  | copyFrom (source : List UInt8)
  | setByte (index : Nat) (value : UInt8)
  | readWords
  | bytes
  | copyTo (size : Nat)
  | describe
  deriving DecidableEq, Repr

def Access.name : Access → String
  | writeWords _ => "write_f32s"
  | copyFrom _ => "copy_from"
  | setByte .. => "set"
  | readWords => "read_f32s"
  | bytes => "bytes"
  | copyTo _ => "copy_to"
  | describe => "meta"

/-- Where a new blob's contents come from. -/
inductive BlobSource where
  | words (shape : Shape) (words : List UInt32)
  | zeros (shape : Shape) (dataType : DataType)
  | filled (shape : Shape) (dataType : DataType) (bytes : List UInt8)
  deriving DecidableEq, Repr

/-- Commands on handles, storages and the catalog of published storages. -/
inductive StoreCommand where
  | newBlob (name : String) (source : BlobSource)
  | newStorage (name : String) (source : BlobSource)
  | newHandle (name storage : String)
  /-- Names the storage that a handle is bound to now. -/
  | grab (blob storage : String)
  | rebind (blob storage : String)
  | shares (blob storage : String)
  | sharesBlob (a b : String)
  | snapshot (blob : String)
  | peek (storage : String)
  | sameContents (a b : String)
  | poke (blob : String) (words : List UInt32)
  | pokeStorage (storage : String) (words : List UInt32)
  | publish (name storage : String)
  | published (name : String)
  | withdraw (name : String)
  | isPublished (name : String)
  | publishedCount
  deriving DecidableEq, Repr

/-- Commands that only look at streams and registry. -/
inductive QueryCommand where
  | isExecuting (stream : StreamCategory)
  | pending
  | stream (category : StreamCategory)
  | debug
  | lookup (name : String)
  | names
  deriving DecidableEq, Repr

mutual

/-- An operand as host code writes it; the blob is looked up when the operand is made. -/
inductive OperandSpec where
  | write (blob : String) (callback : List Action)
  | read (blob : String) (callback : List Action)
  | lazyReference (blob lazyName : String)
  | word (value : UInt32)
  | string (value : String)

/-- One action of a callback. -/
inductive Action where
  | access (access : Access)
  | panic (message : String)
  /-- Catches a panic of the action. -/
  | attempt (action : Action)
  | step (command : Command)
  /-- Runs the command on another thread, waits for it, and catches its panic. -/
  | thread (command : Command)
  | signal (gate : String)
  /-- Waits for the gate to be signalled, but not for ever. -/
  | wait (gate : String)

inductive Command where
  | store (command : StoreCommand)
  | query (command : QueryCommand)
  | receive (name : String) (operand : OperandSpec)
  | receiveMessage (name : String) (operand : Option OperandSpec)
  | enqueue (stream : StreamCategory) (name : String) (operand : Option OperandSpec)
  | schedule
  | scheduleConcurrently
  | runPending (stream : StreamCategory)

end

def Action.name : Action → String
  | .access a => a.name
  | .panic _ => "panic"
  | .attempt _ => "try"
  | .step _ => "step"
  | .thread _ => "thread"
  | .signal _ => "signal"
  | .wait _ => "wait"

mutual

/-- Number of constructors, the measure of how much work a program can ask for. -/
def OperandSpec.size : OperandSpec → Nat
  | .write _ callback | .read _ callback => actionsSize callback + 1
  | _ => 1

def actionsSize : List Action → Nat
  | [] => 0
  | action :: rest => action.size + actionsSize rest + 1

def Action.size : Action → Nat
  | .attempt action => action.size + 1
  | .step command | .thread command => command.size + 1
  | _ => 1

def Command.size : Command → Nat
  | .receive _ operand => operand.size + 1
  | .receiveMessage _ operand | .enqueue _ _ operand => optionSize operand + 1
  | _ => 1

def optionSize : Option OperandSpec → Nat
  | none => 0
  | some operand => operand.size + 1

end

end StreamMachine
