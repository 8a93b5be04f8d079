import StreamMachine.Config.Json

/-! Loading a configuration from a text or a file: reading, then validation, with the errors wrapped
in what was being done. -/
namespace StreamMachine

inductive LoadError where
  | unparsable (fault : Json.Fault)
  | invalid (error : ConfigError)
  | fileNotFound (path : String)
  | fileNotUtf8 (path : String)
  /-- An error in the contents of the file at the path. -/
  | inFile (path : String) (error : LoadError)
  deriving DecidableEq, Repr

namespace LoadError

def message : LoadError → String
  | unparsable fault => "failed to parse VM configuration: " ++ fault.message
  | invalid error => error.message
  | fileNotFound path =>
    s!"failed to read VM configuration from '{path}': No such file or directory (os error 2)"
  | fileNotUtf8 path =>
    s!"failed to read VM configuration from '{path}': stream did not contain valid UTF-8"
  | inFile path error => s!"in '{path}': {error.message}"

end LoadError

/-- What is found under the path of a configuration file. -/
inductive FileContents where
  | missing
  | text (contents : String)
  | bytes (contents : ByteArray)

namespace MachineConfig

def ofJson (text : String) : Except LoadError MachineConfig := do
  match Json.decodeText decode text with
  | .error fault => throw (.unparsable fault)
  | .ok config =>
    match config.validate with
    | .error error => throw (.invalid error)
    | .ok () => pure config

def ofFile (path : String) (contents : FileContents) : Except LoadError MachineConfig := do
  let text ← match contents with
    | .missing => throw (.fileNotFound path)
    | .text contents => pure contents
    | .bytes contents =>
      match String.fromUTF8? contents with
      | some text => pure text
      | none => throw (.fileNotUtf8 path)
  (ofJson text).mapError (.inFile path)

end MachineConfig

end StreamMachine
