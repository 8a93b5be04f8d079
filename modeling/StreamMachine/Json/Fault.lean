import StreamMachine.Text.Quoted

/-! What can be wrong with a JSON text: it ends too early, it is malformed, or it is well formed
and holds something else than what is asked for. -/
namespace StreamMachine.Json

/-- What a text holds in place of the thing asked for. -/
inductive Found where
  | null
  | bool (value : Bool)
  | integer (value : Int)
  | float (text : String)
  | string (value : String)
  | sequence
  | map
  deriving DecidableEq, Repr

def Found.describe : Found → String
  | null => "null"
  | bool value => s!"boolean `{value}`"
  | integer value => s!"integer `{value}`"
  | float text => s!"floating point `{text}`"
  | string value => "string " ++ Text.quote value
  | sequence => "sequence"
  | map => "map"

inductive Fault where
  | endInValue
  | endInString
  | endInList
  | endInObject
  | expectedValue
  | expectedIdent
  | expectedColon
  | expectedListEnd
  | expectedObjectEnd
  | trailingCharacters
  | trailingComma
  | keyNotString
  | invalidNumber
  | numberOutOfRange
  | invalidEscape
  | hexEscapeEnd
  | loneSurrogate
  | controlCharacter
  | invalidType (found : Found) (expected : String)
  | invalidValue (found : Found) (expected : String)
  | invalidLength (length : Nat) (expected : String)
  | missingField (field : String)
  | duplicateField (field : String)
  | unknownVariant (variant : String) (known : List String)
  /-- A refusal that the asked-for type words itself. -/
  | refused (reason : String)
  deriving DecidableEq, Repr

inductive FaultClass where
  | early
  | malformed
  | mismatched
  deriving DecidableEq, Repr

namespace Fault

def faultClass : Fault → FaultClass
  | endInValue | endInString | endInList | endInObject => .early
  | invalidType .. | invalidValue .. | invalidLength .. | missingField _ | duplicateField _
  | unknownVariant .. | refused _ => .mismatched
  | _ => .malformed

def message : Fault → String
  | endInValue => "EOF while parsing a value"
  | endInString => "EOF while parsing a string"
  | endInList => "EOF while parsing a list"
  | endInObject => "EOF while parsing an object"
  | expectedValue => "expected value"
  | expectedIdent => "expected ident"
  | expectedColon => "expected `:`"
  | expectedListEnd => "expected `,` or `]`"
  | expectedObjectEnd => "expected `,` or `\x7d`"
  | trailingCharacters => "trailing characters"
  | trailingComma => "trailing comma"
  | keyNotString => "key must be a string"
  | invalidNumber => "invalid number"
  | numberOutOfRange => "number out of range"
  | invalidEscape => "invalid escape"
  | hexEscapeEnd => "unexpected end of hex escape"
  | loneSurrogate => "lone leading surrogate in hex escape"
  | controlCharacter => "control character (\\u0000-\\u001F) found while parsing a string"
  | invalidType found expected => s!"invalid type: {found.describe}, expected {expected}"
  | invalidValue found expected => s!"invalid value: {found.describe}, expected {expected}"
  | invalidLength length expected => s!"invalid length {length}, expected {expected}"
  | missingField field => s!"missing field `{field}`"
  | duplicateField field => s!"duplicate field `{field}`"
  | unknownVariant variant known =>
    s!"unknown variant `{variant}`, expected one of " ++
      ", ".intercalate (known.map fun v => s!"`{v}`")
  | refused reason => reason

end Fault

end StreamMachine.Json
