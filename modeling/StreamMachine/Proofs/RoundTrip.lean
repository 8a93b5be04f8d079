import Mathlib.Data.List.Forall2
import StreamMachine.Config.Load
import StreamMachine.Proofs.Reading

/-! The text of a configuration is read back as that configuration, whatever its streams, its strings
and its flags are. -/
namespace StreamMachine

open Json (Reads Fills objectText entryText)
open MachineConfig (commaSeparated)

theorem StreamCategory.parse_tag (category : StreamCategory) : parse category.tag = .ok category := by
  rcases category with _ | _ | _ | _ <;> decide +kernel

theorem StreamCategory.reads_tag (category : StreamCategory) :
    Reads StreamCategory.decode (Json.writeString category.tag) category where
  starts := (Reads.string category.tag).starts
  result rest h := by
    simp [decode, ofString, (Reads.string category.tag).result rest h, parse_tag, bind, Except.bind,
      pure, Except.pure]

theorem reads_word (n : UInt32) : Reads decodeWord (Nat.toDigits 10 n.toNat) n := by
  have below : n.toNat < UInt32.size := n.toNat_lt
  have read := (Reads.nat "u32" below (Nat.lt_trans below (by decide))).into UInt32.ofNat
  rwa [UInt32.ofNat_toNat] at read

namespace StreamConfig

theorem write_eq (x : StreamConfig) : x.write = objectText
    [("category", Json.writeString x.category.tag), ("device_id", Nat.toDigits 10 x.device.toNat)] := by
  have category : "\x7b\"category\":".toList = '\x7b' :: (Json.writeString "category" ++ [':']) := rfl
  have device : ",\"device_id\":".toList = ',' :: (Json.writeString "device_id" ++ [':']) := rfl
  unfold write objectText
  rw [category, device]
  simp only [entryText, commaSeparated, List.map_cons, List.map_nil, List.append_assoc,
    List.cons_append, List.nil_append]

theorem reads_write (x : StreamConfig) : Reads decode x.write x := by
  have category : Reads (format.read "category" {}) (Json.writeString x.category.tag)
      ⟨some x.category, none⟩ :=
    x.category.reads_tag.into fun c => (⟨some c, none⟩ : Partial)
  have device : Reads (format.read "device_id" ⟨some x.category, none⟩)
      (Nat.toDigits 10 x.device.toNat) ⟨some x.category, some x.device⟩ :=
    (reads_word x.device).into fun d => (⟨some x.category, some d⟩ : Partial)
  rw [write_eq]
  exact .object (.cons (by decide) rfl category (.cons (by decide) rfl device (.nil _))) rfl

end StreamConfig

namespace LoggingConfig

theorem write_eq (x : LoggingConfig) : x.write = objectText
    [("directives", writeDirectives x.directives),
      ("default_directive", Json.writeString x.defaultDirective),
      ("include_targets", writeBool x.includeTargets), ("ansi", writeBool x.ansi)] := by
  have directives : "\x7b\"directives\":".toList =
      '\x7b' :: (Json.writeString "directives" ++ [':']) := rfl
  have default : ",\"default_directive\":".toList =
    ',' :: (Json.writeString "default_directive" ++ [':']) := rfl
  have targets : ",\"include_targets\":".toList =
    ',' :: (Json.writeString "include_targets" ++ [':']) := rfl
  have ansi : ",\"ansi\":".toList = ',' :: (Json.writeString "ansi" ++ [':']) := rfl
  unfold write objectText
  rw [directives, default, targets, ansi]
  simp only [entryText, commaSeparated, List.map_cons, List.map_nil, List.append_assoc,
    List.cons_append, List.nil_append]

theorem reads_bool (b : Bool) : Reads Json.decodeBool (writeBool b) b := by
  cases b
  · exact .false
  · exact .true

theorem reads_directives (directives : Option String) :
    Reads (Json.decodeOption Json.decodeString) (writeDirectives directives) directives := by
  cases directives with
  | none => exact .null
  | some directives => exact .someString directives

theorem reads_write (x : LoggingConfig) : Reads decode x.write x := by
  have directives : Reads (format.read "directives" {}) (writeDirectives x.directives)
      ⟨some x.directives, none, none, none⟩ :=
    (reads_directives x.directives).into fun d => (⟨some d, none, none, none⟩ : Partial)
  have default : Reads (format.read "default_directive" ⟨some x.directives, none, none, none⟩)
      (Json.writeString x.defaultDirective) ⟨some x.directives, some x.defaultDirective, none, none⟩ :=
    (Reads.string x.defaultDirective).into fun d =>
      (⟨some x.directives, some d, none, none⟩ : Partial)
  have targets : Reads
      (format.read "include_targets" ⟨some x.directives, some x.defaultDirective, none, none⟩)
      (writeBool x.includeTargets)
      ⟨some x.directives, some x.defaultDirective, some x.includeTargets, none⟩ :=
    (reads_bool x.includeTargets).into fun b =>
      (⟨some x.directives, some x.defaultDirective, some b, none⟩ : Partial)
  have ansi : Reads (format.read "ansi"
      ⟨some x.directives, some x.defaultDirective, some x.includeTargets, none⟩) (writeBool x.ansi)
      ⟨some x.directives, some x.defaultDirective, some x.includeTargets, some x.ansi⟩ :=
    (reads_bool x.ansi).into fun b =>
      (⟨some x.directives, some x.defaultDirective, some x.includeTargets, some b⟩ : Partial)
  rw [write_eq]
  exact .object (.cons (by decide) rfl directives (.cons (by decide) rfl default
    (.cons (by decide) rfl targets (.cons (by decide) rfl ansi (.nil _))))) rfl

end LoggingConfig

namespace MachineConfig

theorem write_eq (x : MachineConfig) : x.write = objectText
    [("streams", '[' :: commaSeparated (x.streams.map StreamConfig.write) ++ [']']),
      ("logging", x.logging.write)] := by
  have streams : "\x7b\"streams\":[".toList =
      '\x7b' :: (Json.writeString "streams" ++ [':', '[']) := rfl
  have logging : "],\"logging\":".toList = ']' :: ',' :: (Json.writeString "logging" ++ [':']) := rfl
  unfold write objectText
  rw [streams, logging]
  simp only [entryText, commaSeparated, List.map_cons, List.map_nil, List.append_assoc,
    List.cons_append, List.nil_append]

theorem reads_write (x : MachineConfig) : Reads decode x.write x := by
  have all : List.Forall₂ (Reads StreamConfig.decode) (x.streams.map StreamConfig.write) x.streams :=
    List.forall₂_map_left_iff.2 (List.forall₂_same.2 fun s _ => s.reads_write)
  have streams : Reads (format.read "streams" {})
      ('[' :: commaSeparated (x.streams.map StreamConfig.write) ++ [']']) ⟨some x.streams, none⟩ :=
    (Reads.list all).into fun s => (⟨some s, none⟩ : Partial)
  have logging : Reads (format.read "logging" ⟨some x.streams, none⟩) x.logging.write
      ⟨some x.streams, some x.logging⟩ :=
    x.logging.reads_write.into fun l => (⟨some x.streams, some l⟩ : Partial)
  rw [write_eq]
  exact .object (.cons (by decide) rfl streams (.cons (by decide) rfl logging (.nil _))) rfl

/-- A configuration comes back from its text, and loading the text comes to what validation says. -/
theorem ofJson_toJson (x : MachineConfig) :
    Json.decodeText decode x.toJson = .ok x ∧
      ofJson x.toJson = match x.validate with
        | .ok () => .ok x
        | .error error => .error (.invalid error) := by
  have back : Json.decodeText decode x.toJson = .ok x := x.reads_write.decodeText
  refine ⟨back, ?_⟩
  simp only [ofJson, back]
  cases x.validate <;> rfl

end MachineConfig

end StreamMachine
