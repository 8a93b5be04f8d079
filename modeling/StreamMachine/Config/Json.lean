import StreamMachine.Blob.Json
import StreamMachine.Config.Basic

/-! The JSON form of a configuration. -/
namespace StreamMachine

open Json (Fault Decoder RecordFormat decodeNat decodeString decodeBool decodeOption decodeList)

/-- What has been read of a record, field by field. -/
structure StreamConfig.Partial where
  category : Option StreamCategory := none
  device : Option UInt32 := none

structure LoggingConfig.Partial where
  directives : Option (Option String) := none
  defaultDirective : Option String := none
  includeTargets : Option Bool := none
  ansi : Option Bool := none

structure MachineConfig.Partial where
  streams : Option (List StreamConfig) := none
  logging : Option LoggingConfig := none

/-- Feeds what a decoder reads to an update of the state. -/
def Json.Decoder.into {σ α : Type} (decoder : Decoder α) (update : α → σ) : Decoder σ :=
  fun tokens => (decoder tokens).map fun r => (update r.1, r.2)

def decodeWord : Decoder UInt32 := (decodeNat (UInt32.size) "u32").into UInt32.ofNat

namespace StreamConfig

def finish (x : Partial) : Except Fault StreamConfig :=
  match x.category with
  | some category => .ok ⟨category, x.device.getD 0⟩
  | none => .error (.missingField "category")

def format : RecordFormat Partial StreamConfig where
  expected := "struct StreamConfig"
  fields := ["category", "device_id"]
  start := {}
  has
    | "category", x => x.category.isSome
    | _, x => x.device.isSome
  read
    | "category", x => StreamCategory.decode.into fun c => { x with category := some c }
    | _, x => decodeWord.into fun d => { x with device := some d }
  finish := finish
  finishList count x :=
    if count = 0 then .error (.invalidLength 0 "struct StreamConfig with 2 elements") else finish x

def decode : Decoder StreamConfig := Json.decodeRecord format

def write (x : StreamConfig) : List Char :=
  "\x7b\"category\":".toList ++ Json.writeString x.category.tag ++ ",\"device_id\":".toList
    ++ Nat.toDigits 10 x.device.toNat ++ ['\x7d']

end StreamConfig

namespace LoggingConfig

def complete (x : Partial) : LoggingConfig :=
  let d : LoggingConfig := {}
  ⟨x.directives.getD d.directives, x.defaultDirective.getD d.defaultDirective,
    x.includeTargets.getD d.includeTargets, x.ansi.getD d.ansi⟩

def format : RecordFormat Partial LoggingConfig where
  expected := "struct LoggingConfig"
  fields := ["directives", "default_directive", "include_targets", "ansi"]
  start := {}
  has
    | "directives", x => x.directives.isSome
    | "default_directive", x => x.defaultDirective.isSome
    | "include_targets", x => x.includeTargets.isSome
    | _, x => x.ansi.isSome
  read
    | "directives", x => (decodeOption decodeString).into fun d => { x with directives := some d }
    | "default_directive", x => decodeString.into fun d => { x with defaultDirective := some d }
    | "include_targets", x => decodeBool.into fun b => { x with includeTargets := some b }
    | _, x => decodeBool.into fun b => { x with ansi := some b }
  finish x := .ok (complete x)
  finishList _ x := .ok (complete x)

def decode : Decoder LoggingConfig := Json.decodeRecord format

def writeBool (b : Bool) : List Char := if b then "true".toList else "false".toList

def writeDirectives : Option String → List Char
  | some directives => Json.writeString directives
  | none => "null".toList

def write (x : LoggingConfig) : List Char :=
  "\x7b\"directives\":".toList ++ writeDirectives x.directives
    ++ ",\"default_directive\":".toList ++ Json.writeString x.defaultDirective
    ++ ",\"include_targets\":".toList ++ writeBool x.includeTargets
    ++ ",\"ansi\":".toList ++ writeBool x.ansi ++ ['\x7d']

end LoggingConfig

namespace MachineConfig

def complete (x : Partial) : MachineConfig :=
  let d : MachineConfig := {}
  ⟨x.streams.getD d.streams, x.logging.getD d.logging⟩

def format : RecordFormat Partial MachineConfig where
  expected := "struct VmConfig"
  fields := ["streams", "logging"]
  start := {}
  has
    | "streams", x => x.streams.isSome
    | _, x => x.logging.isSome
  read
    | "streams", x => (decodeList StreamConfig.decode).into fun s => { x with streams := some s }
    | _, x => LoggingConfig.decode.into fun l => { x with logging := some l }
  finish x := .ok (complete x)
  finishList _ x := .ok (complete x)

def decode : Decoder MachineConfig := Json.decodeRecord format

def commaSeparated : List (List Char) → List Char
  | [] => []
  | [x] => x
  | x :: rest => x ++ ',' :: commaSeparated rest

/-- The compact form, every field written out in the order of declaration. -/
def write (x : MachineConfig) : List Char :=
  "\x7b\"streams\":[".toList ++ commaSeparated (x.streams.map StreamConfig.write)
    ++ "],\"logging\":".toList ++ x.logging.write ++ ['\x7d']

def toJson (x : MachineConfig) : String := String.ofList x.write

end MachineConfig

end StreamMachine
