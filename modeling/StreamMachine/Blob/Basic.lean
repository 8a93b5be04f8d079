import StreamMachine.Blob.DataType
import StreamMachine.Blob.Shape

/-! Tensor storage: a shape, an element type, and the bytes of the elements. Views as 32-bit floats
use the bit patterns, least significant byte first. -/
namespace StreamMachine

inductive BlobError where
  | sizeMismatch (blobBytes bufferBytes : Nat)
  | dataTypeMismatch (expected actual : DataType)
  | elementCountMismatch (shape : Shape) (expected got : Nat)
  | tooLarge (shape : Shape) (dataType : DataType)
  deriving DecidableEq, Repr

def BlobError.message : BlobError → String
  | sizeMismatch blob buffer => s!"size mismatch: blob holds {blob} bytes, buffer holds {buffer}"
  | dataTypeMismatch expected actual =>
    s!"data type mismatch: expected {expected.tag}, blob is {actual.tag}"
  | elementCountMismatch shape expected got =>
    s!"element count mismatch: shape {shape.display} needs {expected} elements, got {got}"
  | tooLarge shape dataType =>
    s!"blob of shape {shape.display} and type {dataType.tag} is too large to allocate"

/-- The ways in which access to raw storage aborts the caller. -/
inductive StorageFault where
  /-- No allocation may reach half the address space. -/
  | capacityOverflow
  | indexOutOfBounds (size index : Nat)
  | copyLengthMismatch (source destination : Nat)
  | unallocatable (error : BlobError)
  deriving DecidableEq, Repr

def StorageFault.message : StorageFault → String
  | capacityOverflow => "capacity overflow"
  | indexOutOfBounds size index =>
    s!"index out of bounds: the len is {size} but the index is {index}"
  | copyLengthMismatch source destination =>
    s!"copy_from_slice: source slice length ({source}) does not match " ++
      s!"destination slice length ({destination})"
  | unallocatable error => error.message

structure Blob where
  shape : Shape
  dataType : DataType
  bytes : List UInt8
  deriving DecidableEq, Repr

/-- Four bytes of a word, the least significant first. -/
def wordBytes (w : UInt32) : List UInt8 :=
  [w.toUInt8, (w >>> 8).toUInt8, (w >>> 16).toUInt8, (w >>> 24).toUInt8]

def wordOfBytes (a b c d : UInt8) : UInt32 :=
  a.toUInt32 ||| b.toUInt32 <<< 8 ||| c.toUInt32 <<< 16 ||| d.toUInt32 <<< 24

/-- Words of the complete groups of four bytes; what is left over is passed by. -/
def wordsOfBytes : List UInt8 → List UInt32
  | a :: b :: c :: d :: rest => wordOfBytes a b c d :: wordsOfBytes rest
  | _ => []

/-- Puts words over the complete groups of four bytes for as long as there are both. -/
def overwriteWords : List UInt8 → List UInt32 → List UInt8
  | _ :: _ :: _ :: _ :: rest, w :: ws => wordBytes w ++ overwriteWords rest ws
  | bytes, _ => bytes

theorem length_wordBytes (w : UInt32) : (wordBytes w).length = 4 := rfl

theorem length_overwriteWords (bytes : List UInt8) (words : List UInt32) :
    (overwriteWords bytes words).length = bytes.length := by
  fun_induction overwriteWords with
  | case1 a b c d rest w ws ih => simp [length_wordBytes, ih]; omega
  | case2 => rfl

namespace Blob

def allocationBound : Nat := UInt64.size / 2

def byteSize (blob : Blob) : Nat := blob.bytes.length

/-- Size in bytes, unless it leaves the range of a machine word. -/
def checkedSize (shape : Shape) (dataType : DataType) : Option Nat := do
  checkedMul (← shape.checkedCount) dataType.byteWidth

/-- A zero-filled blob. Sizes beyond a machine word are refused; of the others, those from half the
address space on abort. -/
def tryZeros (shape : Shape) (dataType : DataType) : Except StorageFault (Except BlobError Blob) :=
  match checkedSize shape dataType with
  | none => .ok (.error (.tooLarge shape dataType))
  | some size =>
    if size < allocationBound then .ok (.ok ⟨shape, dataType, List.replicate size 0⟩)
    else .error .capacityOverflow

/-- A zero-filled blob of a size the caller answers for. -/
def zeros (shape : Shape) (dataType : DataType) : Except StorageFault Blob := do
  match ← tryZeros shape dataType with
  | .ok blob => pure blob
  | .error error => throw (.unallocatable error)

def checkDataType (blob : Blob) (expected : DataType) : Except BlobError Unit :=
  if blob.dataType = expected then .ok () else .error (.dataTypeMismatch expected blob.dataType)

def readWords (blob : Blob) : Except BlobError (List UInt32) := do
  blob.checkDataType .f32
  pure (wordsOfBytes blob.bytes)

def writeWords (blob : Blob) (words : List UInt32) : Except BlobError Blob := do
  blob.checkDataType .f32
  if words.length = blob.shape.count then
    pure { blob with bytes := overwriteWords blob.bytes words }
  else
    throw (.elementCountMismatch blob.shape blob.shape.count words.length)

/-- A blob of 32-bit floats with the given contents. -/
def ofWords (shape : Shape) (words : List UInt32) :
    Except StorageFault (Except BlobError Blob) := do
  match ← tryZeros shape .f32 with
  | .ok blob => pure (blob.writeWords words)
  | .error error => pure (.error error)

/-- Changes one byte in place. -/
def setByte (blob : Blob) (index : Nat) (value : UInt8) : Except StorageFault Blob :=
  if index < blob.bytes.length then .ok { blob with bytes := blob.bytes.set index value }
  else .error (.indexOutOfBounds blob.bytes.length index)

/-- Replaces all bytes by a buffer of the same size. -/
def copyFrom (blob : Blob) (source : List UInt8) : Except BlobError Blob :=
  if source.length = blob.bytes.length then .ok { blob with bytes := source }
  else .error (.sizeMismatch blob.bytes.length source.length)

/-- Copies all bytes over a buffer of the same size. Comes with the buffer as it is then. -/
def copyInto (blob : Blob) (destination : List UInt8) : Except BlobError Unit × List UInt8 :=
  if destination.length = blob.bytes.length then (.ok (), blob.bytes)
  else (.error (.sizeMismatch blob.bytes.length destination.length), destination)

/-- The bytes, as they come to be in a zeroed buffer of the given size. -/
def copyTo (blob : Blob) (size : Nat) : Except BlobError (List UInt8) :=
  let (outcome, buffer) := blob.copyInto (List.replicate size 0)
  outcome.map fun _ => buffer

/-- Replaces all bytes, aborting if the buffer has another size. -/
def fill (blob : Blob) (source : List UInt8) : Except StorageFault Blob :=
  if source.length = blob.bytes.length then .ok { blob with bytes := source }
  else .error (.copyLengthMismatch source.length blob.bytes.length)

end Blob

end StreamMachine
