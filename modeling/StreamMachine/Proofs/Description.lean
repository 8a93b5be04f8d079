import StreamMachine.Proofs.Members

/-! What a document describes: the value of each field stands under its name, or in its place, or is
left out and then is the default. A text is read as just the configuration its document describes. -/
namespace StreamMachine

open Json (Value Decodes RecordFormat decodes_string decodes_bool decodes_nat decodes_option)

namespace Json

variable {β : Type} {named more : List (String × Value)} {name key : String} {v : Value}
  {reader : Value → Option β}

/-- The value of a field, if the field is there. -/
def field? (reader : Value → Option β) (name : String) (named : List (String × Value)) :
    Option (Option β) :=
  match named.lookup name with
  | none => some none
  | some v => (reader v).map some

theorem isSome_of_field? {held : Option β} (h : field? reader name named = some held) :
    held.isSome = (named.lookup name).isSome := by
  unfold field? at h
  split at h
  next new =>
    cases h
    rw [new]
    rfl
  next v found =>
    obtain ⟨b, -, rfl⟩ := Option.map_eq_some_iff.1 h
    rw [found]
    rfl

/-- A field that could not be read stays so. -/
theorem exists_field?_of_append {held : Option β}
    (h : field? reader name (named ++ more) = some held) :
    ∃ held, field? reader name named = some held := by
  unfold field? at h ⊢
  rw [List.lookup_append] at h
  cases found : named.lookup name with
  | none => exact ⟨none, rfl⟩
  | some v =>
    rw [found] at h
    exact ⟨held, h⟩

theorem field?_concat_of_ne (other : name ≠ key) :
    field? reader name (named ++ [(key, v)]) = field? reader name named := by
  rw [field?, lookup_concat_of_ne other]
  rfl

theorem field?_concat_of_new (new : named.lookup name = none) :
    field? reader name (named ++ [(name, v)]) = (reader v).map some := by
  rw [field?, lookup_concat_of_new new]

end Json

open Json (field? isSome_of_field? exists_field?_of_append field?_concat_of_ne field?_concat_of_new)

def Json.Value.word? (v : Value) : Option UInt32 := (v.natural? UInt32.size).map UInt32.ofNat

theorem decodes_word : Decodes decodeWord Value.word? :=
  (decodes_nat "u32" (by decide)).into UInt32.ofNat

def Json.Value.category? (v : Value) : Option StreamCategory :=
  v.text?.bind fun text => (StreamCategory.parse text).toOption

theorem decodes_category : Decodes StreamCategory.decode Value.category? := by
  intro v tokens rest lexed
  have read := decodes_string lexed
  cases text : v.text? with
  | none => simp [StreamCategory.decode, read, text, Value.category?]
  | some text' =>
    cases parsed : StreamCategory.parse text' <;>
      simp [StreamCategory.decode, StreamCategory.ofString, read, text, Value.category?, parsed]

namespace StreamConfig

def keys : List String := ["category", "device_id"]

def ofMembers? (named : List (String × Value)) : Option StreamConfig := do
  let category ← field? Value.category? "category" named
  let device ← field? Value.word? "device_id" named
  category.map fun category => ⟨category, device.getD 0⟩

/-- The stream that a document describes. Its category cannot be left out. -/
def described? (v : Value) : Option StreamConfig :=
  (v.members? keys).bind ofMembers?

def partial? (named : List (String × Value)) : Option Partial := do
  let category ← field? Value.category? "category" named
  let device ← field? Value.word? "device_id" named
  some ⟨category, device⟩

theorem partial?_eq_some {named : List (String × Value)} {x : Partial} : partial? named = some x ↔
    field? Value.category? "category" named = some x.category ∧
      field? Value.word? "device_id" named = some x.device := by
  obtain ⟨category, device⟩ := x
  simp [partial?, Option.bind_eq_some_iff]

theorem follows : format.Follows partial? where
  nodup := by decide
  nonempty := by decide
  start := rfl
  has {named x field} known here := by
    obtain ⟨category, device⟩ := partial?_eq_some.1 here
    simp only [format, List.mem_cons, List.not_mem_nil, or_false] at known
    rcases known with rfl | rfl
    · exact isSome_of_field? category
    · exact isSome_of_field? device
  pass {named key} v unknown := by
    simp only [format, List.mem_cons, List.not_mem_nil, or_false, not_or] at unknown
    obtain ⟨category, device⟩ := unknown
    rw [partial?, field?_concat_of_ne (Ne.symm category), field?_concat_of_ne (Ne.symm device)]
    rfl
  front {named more x} here := by
    obtain ⟨category, device⟩ := partial?_eq_some.1 here
    obtain ⟨category, hc⟩ := exists_field?_of_append category
    obtain ⟨device, hd⟩ := exists_field?_of_append device
    exact ⟨⟨category, device⟩, partial?_eq_some.2 ⟨hc, hd⟩⟩
  read {named x field} known here new := by
    obtain ⟨category, device⟩ := partial?_eq_some.1 here
    simp only [format, List.mem_cons, List.not_mem_nil, or_false] at known
    rcases known with rfl | rfl
    · have taken : Decodes (format.read "category" x) _ :=
        decodes_category.into fun c => ({ x with category := some c } : Partial)
      refine taken.congr fun v => ?_
      cases read : v.category? <;>
        simp [partial?, field?_concat_of_new new, field?_concat_of_ne, device, read]
    · have taken : Decodes (format.read "device_id" x) _ :=
        decodes_word.into fun d => ({ x with device := some d } : Partial)
      refine taken.congr fun v => ?_
      cases read : v.word? <;>
        simp [partial?, field?_concat_of_new new, field?_concat_of_ne, category, read]
  list {items x} here := by
    cases items with
    | nil =>
      cases here
      rfl
    | cons v items => simp [format]

theorem decodes : Decodes decode described? := by
  refine follows.record.congr fun v => ?_
  refine congrArg (Option.bind _) (funext fun named => ?_)
  cases category : field? Value.category? "category" named with
  | none => simp [ofMembers?, partial?, category]
  | some category' =>
    cases device : field? Value.word? "device_id" named <;> cases category' <;>
      simp [ofMembers?, partial?, category, device, format, finish]

end StreamConfig

namespace LoggingConfig

def keys : List String := ["directives", "default_directive", "include_targets", "ansi"]

def ofMembers? (named : List (String × Value)) : Option LoggingConfig := do
  let directives ← field? (Value.orNull? Value.text?) "directives" named
  let defaultDirective ← field? Value.text? "default_directive" named
  let includeTargets ← field? Value.flag? "include_targets" named
  let ansi ← field? Value.flag? "ansi" named
  some ⟨directives.getD none, defaultDirective.getD "info", includeTargets.getD true,
    ansi.getD true⟩

/-- The logging section that a document describes. -/
def described? (v : Value) : Option LoggingConfig :=
  (v.members? keys).bind ofMembers?

def partial? (named : List (String × Value)) : Option Partial := do
  let directives ← field? (Value.orNull? Value.text?) "directives" named
  let defaultDirective ← field? Value.text? "default_directive" named
  let includeTargets ← field? Value.flag? "include_targets" named
  let ansi ← field? Value.flag? "ansi" named
  some ⟨directives, defaultDirective, includeTargets, ansi⟩

theorem partial?_eq_some {named : List (String × Value)} {x : Partial} : partial? named = some x ↔
    field? (Value.orNull? Value.text?) "directives" named = some x.directives ∧
      field? Value.text? "default_directive" named = some x.defaultDirective ∧
      field? Value.flag? "include_targets" named = some x.includeTargets ∧
      field? Value.flag? "ansi" named = some x.ansi := by
  obtain ⟨directives, defaultDirective, includeTargets, ansi⟩ := x
  simp [partial?, Option.bind_eq_some_iff]

theorem follows : format.Follows partial? where
  nodup := by decide
  nonempty := by decide
  start := rfl
  has {named x field} known here := by
    obtain ⟨directives, default, targets, ansi⟩ := partial?_eq_some.1 here
    simp only [format, List.mem_cons, List.not_mem_nil, or_false] at known
    rcases known with rfl | rfl | rfl | rfl
    · exact isSome_of_field? directives
    · exact isSome_of_field? default
    · exact isSome_of_field? targets
    · exact isSome_of_field? ansi
  pass {named key} v unknown := by
    simp only [format, List.mem_cons, List.not_mem_nil, or_false, not_or] at unknown
    obtain ⟨directives, default, targets, ansi⟩ := unknown
    rw [partial?, field?_concat_of_ne (Ne.symm directives), field?_concat_of_ne (Ne.symm default),
      field?_concat_of_ne (Ne.symm targets), field?_concat_of_ne (Ne.symm ansi)]
    rfl
  front {named more x} here := by
    obtain ⟨directives, default, targets, ansi⟩ := partial?_eq_some.1 here
    obtain ⟨directives, hd⟩ := exists_field?_of_append directives
    obtain ⟨default, hf⟩ := exists_field?_of_append default
    obtain ⟨targets, ht⟩ := exists_field?_of_append targets
    obtain ⟨ansi, ha⟩ := exists_field?_of_append ansi
    exact ⟨⟨directives, default, targets, ansi⟩, partial?_eq_some.2 ⟨hd, hf, ht, ha⟩⟩
  read {named x field} known here new := by
    obtain ⟨directives, default, targets, ansi⟩ := partial?_eq_some.1 here
    simp only [format, List.mem_cons, List.not_mem_nil, or_false] at known
    rcases known with rfl | rfl | rfl | rfl
    · have taken : Decodes (format.read "directives" x) _ :=
        (decodes_option decodes_string).into fun d => ({ x with directives := some d } : Partial)
      refine taken.congr fun v => ?_
      cases read : v.orNull? Value.text? <;>
        simp [partial?, field?_concat_of_new new, field?_concat_of_ne, default, targets, ansi, read]
    · have taken : Decodes (format.read "default_directive" x) _ :=
        decodes_string.into fun d => ({ x with defaultDirective := some d } : Partial)
      refine taken.congr fun v => ?_
      cases read : v.text? <;>
        simp [partial?, field?_concat_of_new new, field?_concat_of_ne, directives, targets, ansi,
          read]
    · have taken : Decodes (format.read "include_targets" x) _ :=
        decodes_bool.into fun b => ({ x with includeTargets := some b } : Partial)
      refine taken.congr fun v => ?_
      cases read : v.flag? <;>
        simp [partial?, field?_concat_of_new new, field?_concat_of_ne, directives, default, ansi,
          read]
    · have taken : Decodes (format.read "ansi" x) _ :=
        decodes_bool.into fun b => ({ x with ansi := some b } : Partial)
      refine taken.congr fun v => ?_
      cases read : v.flag? <;>
        simp [partial?, field?_concat_of_new new, field?_concat_of_ne, directives, default, targets,
          read]
  list _ := rfl

theorem decodes : Decodes decode described? := by
  refine follows.record.congr fun v => ?_
  refine congrArg (Option.bind _) (funext fun named => ?_)
  simp [ofMembers?, partial?, Option.bind_assoc, format, complete]

end LoggingConfig

namespace MachineConfig

def keys : List String := ["streams", "logging"]

def ofMembers? (named : List (String × Value)) : Option MachineConfig := do
  let streams ← field? (Value.list? StreamConfig.described?) "streams" named
  let logging ← field? LoggingConfig.described? "logging" named
  some ⟨streams.getD [⟨.host, 0⟩, ⟨.cpu, 0⟩], logging.getD ⟨none, "info", true, true⟩⟩

/-- The configuration that a document describes. -/
def described? (v : Value) : Option MachineConfig :=
  (v.members? keys).bind ofMembers?

def partial? (named : List (String × Value)) : Option Partial := do
  let streams ← field? (Value.list? StreamConfig.described?) "streams" named
  let logging ← field? LoggingConfig.described? "logging" named
  some ⟨streams, logging⟩

theorem partial?_eq_some {named : List (String × Value)} {x : Partial} : partial? named = some x ↔
    field? (Value.list? StreamConfig.described?) "streams" named = some x.streams ∧
      field? LoggingConfig.described? "logging" named = some x.logging := by
  obtain ⟨streams, logging⟩ := x
  simp [partial?, Option.bind_eq_some_iff]

theorem follows : format.Follows partial? where
  nodup := by decide
  nonempty := by decide
  start := rfl
  has {named x field} known here := by
    obtain ⟨streams, logging⟩ := partial?_eq_some.1 here
    simp only [format, List.mem_cons, List.not_mem_nil, or_false] at known
    rcases known with rfl | rfl
    · exact isSome_of_field? streams
    · exact isSome_of_field? logging
  pass {named key} v unknown := by
    simp only [format, List.mem_cons, List.not_mem_nil, or_false, not_or] at unknown
    obtain ⟨streams, logging⟩ := unknown
    rw [partial?, field?_concat_of_ne (Ne.symm streams), field?_concat_of_ne (Ne.symm logging)]
    rfl
  front {named more x} here := by
    obtain ⟨streams, logging⟩ := partial?_eq_some.1 here
    obtain ⟨streams, hs⟩ := exists_field?_of_append streams
    obtain ⟨logging, hl⟩ := exists_field?_of_append logging
    exact ⟨⟨streams, logging⟩, partial?_eq_some.2 ⟨hs, hl⟩⟩
  read {named x field} known here new := by
    obtain ⟨streams, logging⟩ := partial?_eq_some.1 here
    simp only [format, List.mem_cons, List.not_mem_nil, or_false] at known
    rcases known with rfl | rfl
    · have taken : Decodes (format.read "streams" x) _ :=
        StreamConfig.decodes.list.into fun s => ({ x with streams := some s } : Partial)
      refine taken.congr fun v => ?_
      cases read : v.list? StreamConfig.described? <;>
        simp [partial?, field?_concat_of_new new, field?_concat_of_ne, logging, read]
    · have taken : Decodes (format.read "logging" x) _ :=
        LoggingConfig.decodes.into fun l => ({ x with logging := some l } : Partial)
      refine taken.congr fun v => ?_
      cases read : LoggingConfig.described? v <;>
        simp [partial?, field?_concat_of_new new, field?_concat_of_ne, streams, read]
  list _ := rfl

theorem decodes : Decodes decode described? := by
  refine follows.record.congr fun v => ?_
  refine congrArg (Option.bind _) (funext fun named => ?_)
  simp [ofMembers?, partial?, Option.bind_assoc, format, complete]

/-- A text of a document is read as the configuration that the document describes, and refused if it
describes none. -/
theorem decodeText_eq_ok_iff {v : Value} {text : List Char} (writes : Json.Writes (.value v) text)
    {config : MachineConfig} :
    Json.decodeText decode (String.ofList text) = .ok config ↔ described? v = some config := by
  rw [← Json.toOption_eq_some, decodes.decodeText writes]

end MachineConfig

end StreamMachine
