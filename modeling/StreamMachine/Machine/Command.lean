import StreamMachine.Machine.Deed

/-! Commands that take effect at once, on the store and on the queues, and questions. A command is
answered from the world as it is, together with the deed that it asks for. -/
namespace StreamMachine

namespace BlobSource

def make : BlobSource → Except StorageFault (Except BlobError Blob)
  | words shape values => Blob.ofWords shape values
  | zeros shape dataType => Blob.tryZeros shape dataType
  | filled shape dataType bytes => do
    match ← Blob.tryZeros shape dataType with
    | .ok blob => pure (.ok (← blob.fill bytes))
    | .error error => pure (.error error)

end BlobSource

namespace World

def named {α : Type} (what name : String) : Option α → Except Panic α
  | some a => .ok a
  | none => .error (.raised s!"no {what} is called '{name}'")

def handle (w : World) (name : String) : Except Panic Handle :=
  named "blob" name (w.directory.handles.lookup name)

def storage (w : World) (name : String) : Except Panic StorageId :=
  named "storage" name (w.directory.storages.lookup name)

/-- The storage that the handle of a name is bound to. -/
def bound (w : World) (name : String) : Except Panic StorageId := do
  named "blob" name (w.store.binding? (← w.handle name))

/-- The names of a storage in order, if there is a storage. -/
def storageNames (w : World) : Option StorageId → Reply
  | none => .nothing
  | some id =>
    let names := (w.directory.storages.filter fun e => e.2 == id).map (·.1)
    .texts (names.mergeSort fun a b => a ≤ b)

/-- Contents of a storage, unless a writer holds it. -/
def readable? (w : World) (id : StorageId) : Option Blob :=
  if w.store.canAcquire .read id then w.store.blob? id else none

/-- Writes words to a storage, unless anybody holds it. -/
def poke? (w : World) (id : StorageId) (words : List UInt32) : Option (Reply × Deed) :=
  if w.store.canAcquire .write id then
    (w.store.blob? id).map fun blob =>
      match blob.writeWords words with
      | .ok blob => (.ok, .setBlob id blob)
      | .error error => (.failed (.blob error), .nothing)
  else none

def made (source : BlobSource) : Except Panic (Except BlobError Blob) :=
  source.make.mapError .storage

/-- What a command on the store comes to; none if a lock it needs is held. -/
def storeCommand? (w : World) : StoreCommand → Except Panic (Option (Reply × Deed))
  | .newBlob name source => do
    match ← made source with
    | .error error => pure (some (.failed (.blob error), .nothing))
    | .ok blob => pure (some (.text name, .newBlob name blob))
  | .newStorage name source => do
    match ← made source with
    | .error error => pure (some (.failed (.blob error), .nothing))
    | .ok blob => pure (some (.ok, .newStorage name blob))
  | .newHandle name storage => do pure (some (.ok, .newHandle name (← w.storage storage)))
  | .grab blob storage => do pure (some (.ok, .nameStorage storage (← w.bound blob)))
  | .rebind blob storage => do
    pure (some (.ok, .rebind (← w.handle blob) (← w.storage storage)))
  | .shares blob storage => do
    pure (some (.flag ((← w.bound blob) == (← w.storage storage)), .nothing))
  | .sharesBlob a b => do
    pure (some (.flag ((← w.bound a) == (← w.bound b)), .nothing))
  | .snapshot blob => do
    pure ((w.readable? (← w.bound blob)).map fun contents => (.contents contents, .nothing))
  | .peek storage => do
    pure ((w.readable? (← w.storage storage)).map fun contents => (.contents contents, .nothing))
  | .sameContents a b => do
    let (x, y) := (w.readable? (← w.bound a), w.readable? (← w.bound b))
    pure (x.bind fun x => y.map fun y => (.flag (x == y), .nothing))
  | .poke blob words => do pure (w.poke? (← w.bound blob) words)
  | .pokeStorage storage words => do pure (w.poke? (← w.storage storage) words)
  | .publish name storage => do
    let id ← w.storage storage
    pure (some (w.storageNames (w.store.published? name), .publish name id))
  | .published name => pure (some (w.storageNames (w.store.published? name), .nothing))
  | .withdraw name => pure (some (w.storageNames (w.store.published? name), .withdraw name))
  | .isPublished name => pure (some (.flag (w.store.published? name).isSome, .nothing))
  | .publishedCount =>
    let n := w.store.catalog.length
    pure (some (.items [.count n, .flag (n == 0)], .nothing))

def descriptorReply (d : Descriptor) : Reply := .descriptor d.name d.id d.category d.debugText

def query (w : World) : QueryCommand → Except Violation Reply
  | .isExecuting category => .ok <|
    match w.streams.find? fun s => s.category == category with
    | some stream => .flag stream.executing
    | none => .nothing
  | .pending => .ok (.count w.pending)
  | .stream category => .ok <|
    match w.streams.find? fun s => s.category == category with
    | some stream => .stream stream.category stream.device stream.debugText
    | none => .nothing
  | .debug => .ok (.text w.debugText)
  | .lookup name => (w.registry.lookup name).map descriptorReply
  | .names => .ok (.texts w.registry.names)

/-- Makes an operand; its blob is the one that has the name now. -/
def operand (w : World) : OperandSpec → Except Panic Operand
  | .write blob callback => do pure (.write (← w.handle blob) callback)
  | .read blob callback => do pure (.read (← w.handle blob) callback)
  | .lazyReference blob lazyName => do pure (.lazyReference (← w.handle blob) lazyName)
  | .word value => pure (.custom (.word value))
  | .string value => pure (.custom (.string value))

def operand? (w : World) : Option OperandSpec → Except Panic (Option Operand)
  | none => pure none
  | some spec => do pure (some (← w.operand spec))

/-- Outcome of handing a message to a stream. -/
inductive Submission where
  | rejected (error : WiringError)
  | accepted (stream : Nat) (message : Message)

/-- Hands a message to the stream at a position, which takes its own category only. -/
def enqueue (w : World) (i : Nat) (m : Message) : Submission :=
  if m.descriptor.category = w.categoryAt i then .accepted i m
  else .rejected (.streamMismatch m.name m.descriptor.category (w.categoryAt i))

/-- Hands a message to the stream of the category it asks for. -/
def receiveMessage (w : World) (m : Message) : Submission :=
  match w.streamOf? m.descriptor.category with
  | some i => w.enqueue i m
  | none => .rejected (.noStream m.name m.descriptor.category)

/-- The message for a registered name. -/
def message (w : World) (name : String) (operand : Option OperandSpec) :
    Except Panic Message := do
  let operand ← w.operand? operand
  let descriptor ← (w.registry.lookup name).mapError .violation
  pure ⟨descriptor, operand⟩

namespace Submission

def reply : Submission → Reply
  | rejected error => .failed (.wiring error)
  | accepted .. => .ok

def deed : Submission → Deed
  | rejected _ => .nothing
  | accepted stream message => .push stream message

end Submission

end World

end StreamMachine
