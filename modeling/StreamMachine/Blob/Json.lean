import StreamMachine.Blob.DataType
import StreamMachine.Blob.Shape
import StreamMachine.Json.Decode

/-! Tags and shapes in JSON. -/
namespace StreamMachine

def StreamCategory.toJson (category : StreamCategory) : String :=
  String.ofList (Json.writeString category.tag)

/-- A string in any spelling that names a category. -/
def StreamCategory.decode : Json.Decoder StreamCategory := fun tokens => do
  let (text, rest) ← Json.decodeString tokens
  match StreamCategory.ofString text with
  | .ok category => pure (category, rest)
  | .error error => throw (.refused error.message)

def StreamCategory.ofJson (text : String) : Except Json.Fault StreamCategory :=
  Json.decodeText decode text

def DataType.toJson (dataType : DataType) : String := String.ofList (Json.writeString dataType.tag)

def DataType.decode : Json.Decoder DataType :=
  Json.decodeVariant (DataType.all.map fun d => (d.tag, d))

def DataType.ofJson (text : String) : Except Json.Fault DataType := Json.decodeText decode text

def Shape.toJson (shape : Shape) : String := "[" ++ shape.separated "," ++ "]"

def Shape.decode : Json.Decoder Shape := fun tokens => do
  let (dims, rest) ← Json.decodeList (Json.decodeNat wordBound "usize") tokens
  pure (⟨dims.map UInt64.ofNat⟩, rest)

def Shape.ofJson (text : String) : Except Json.Fault Shape := Json.decodeText decode text

end StreamMachine
