import StreamMachine.Reply
import StreamMachine.Store

/-! Sessions on blobs that have names. -/
namespace StreamMachine

inductive BlobCommand where
  | zeros (name : String) (shape : Shape) (dataType : DataType)
  | tryZeros (name : String) (shape : Shape) (dataType : DataType)
  | ofWords (name : String) (shape : Shape) (words : List UInt32)
  | copy (name source : String)
  | layout (name : String)
  | write (name : String) (words : List UInt32)
  | read (name : String)
  | bytes (name : String)
  | setByte (name : String) (index : Nat) (value : UInt8)
  | equal (a b : String)
  deriving DecidableEq, Repr

/-- Blobs by name. -/
abbrev BlobShelf := List (String × Blob)

namespace BlobShelf

def find (shelf : BlobShelf) (name : String) : Except Panic Blob :=
  match shelf.lookup name with
  | some blob => .ok blob
  | none => .error (.raised s!"no blob is called '{name}'")

def unchanged (shelf : BlobShelf) (reply : Reply) : Reply × BlobShelf := (reply, shelf)

/-- Keeps a new blob under a name, in place of the one that had it. -/
def keep (shelf : BlobShelf) (name : String) (blob : Blob) : Reply × BlobShelf :=
  (.contents blob, putKey name blob shelf)

/-- Keeps what has been made; an error changes nothing. -/
def keepMade (shelf : BlobShelf) (name : String) : Except BlobError Blob → Reply × BlobShelf
  | .ok blob => shelf.keep name blob
  | .error error => shelf.unchanged (.failed (.blob error))

def perform (shelf : BlobShelf) : BlobCommand → Except Panic (Reply × BlobShelf)
  | .zeros name shape dataType => do
    pure (shelf.keep name (← (Blob.zeros shape dataType).mapError .storage))
  | .tryZeros name shape dataType => do
    pure (shelf.keepMade name (← (Blob.tryZeros shape dataType).mapError .storage))
  | .ofWords name shape words => do
    pure (shelf.keepMade name (← (Blob.ofWords shape words).mapError .storage))
  | .copy name source => do pure (shelf.keep name (← shelf.find source))
  | .layout name => do
    let blob ← shelf.find name
    pure (shelf.unchanged (.layout blob.shape blob.dataType blob.byteSize))
  | .write name words => do
    match (← shelf.find name).writeWords words with
    | .ok blob => pure (.ok, putKey name blob shelf)
    | .error error => pure (shelf.unchanged (.failed (.blob error)))
  | .read name => do pure (shelf.unchanged (.ofBlobResult .words (← shelf.find name).readWords))
  | .bytes name => do pure (shelf.unchanged (.bytes (← shelf.find name).bytes))
  | .setByte name index value => do
    let blob ← ((← shelf.find name).setByte index value).mapError .storage
    pure (.ok, putKey name blob shelf)
  | .equal a b => do pure (shelf.unchanged (.flag ((← shelf.find a) == (← shelf.find b))))

/-- The replies to commands in order. A panic changes nothing. -/
def replies (shelf : BlobShelf) : List BlobCommand → List Reply
  | [] => []
  | command :: rest =>
    match shelf.perform command with
    | .ok (reply, shelf) => reply :: replies shelf rest
    | .error panic => .panicked panic :: replies shelf rest

end BlobShelf

end StreamMachine
