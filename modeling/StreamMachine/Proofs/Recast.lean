import Mathlib.Logic.Relation
import StreamMachine.Config.Load
import StreamMachine.Proofs.Description

/-! Ways of writing a configuration down otherwise: its records with their keys in another order, with
keys that mean nothing, without those that say what is the default anyway, or as lists. However these
are combined, the same configuration is read. -/
namespace StreamMachine

namespace Json

section Records

variable (fields : List String) (isDefault : String → Value → Prop)
  (inside : String → Value → Value → Prop)

/-- What may become of the member under a name: it may change inside, and it may be left out or
written out if it says what is the default. -/
def Alike (name : String) : Option Value → Option Value → Prop
  | some v, some w => v = w ∨ inside name v w
  | some v, none | none, some v => isDefault name v
  | none, none => True

/-- One change of how a record is written down. -/
inductive Recast : Value → Value → Prop
  | permuted {entries entries' : List (List Glyph × Value)} (order : entries.Perm entries') :
      Recast (.object entries) (.object entries')
  | added {front back : List (List Glyph × Value)} {key : List Glyph} {name : String} (v : Value)
      (spelled : spelled? key = some name) (unknown : name ∉ fields) :
      Recast (.object (front ++ back)) (.object (front ++ (key, v) :: back))
  | dropped {front back : List (List Glyph × Value)} {key : List Glyph} {name : String} {v : Value}
      (spelled : spelled? key = some name) (default : isDefault name v) :
      Recast (.object (front ++ (key, v) :: back)) (.object (front ++ back))
  | entry {front back : List (List Glyph × Value)} {key : List Glyph} {name : String} {v w : Value}
      (spelled : spelled? key = some name) (change : inside name v w) :
      Recast (.object (front ++ (key, v) :: back)) (.object (front ++ (key, w) :: back))
  | item {front back : List Value} {name : String} {v w : Value}
      (place : fields[front.length]? = some name) (change : inside name v w) :
      Recast (.list (front ++ v :: back)) (.list (front ++ w :: back))
  /-- As a list of the first few fields, if the others say what is the default. -/
  | listed {v : Value} {named : List (String × Value)} {items : List Value}
      (members : v.members? fields = some named) (short : items.length ≤ fields.length)
      (same : ∀ name ∈ fields, Alike isDefault (fun _ _ _ => False) name (named.lookup name)
        ((fields.zip items).lookup name)) :
      Recast v (.list items)

/-- A change of one item of a list. -/
inductive InItem (change : Value → Value → Prop) : Value → Value → Prop
  | item {front back : List Value} {v w : Value} (h : change v w) :
      InItem change (.list (front ++ v :: back)) (.list (front ++ w :: back))

end Records

variable {fields : List String} {isDefault : String → Value → Prop}
  {inside : String → Value → Value → Prop} {front back named named' : List (String × Value)}
  {name other : String} {v w : Value}

theorem Alike.refl (member : Option Value) : Alike isDefault inside name member member := by
  cases member with
  | none => trivial
  | some v => exact .inl rfl

/-- What does not change inside may do so. -/
theorem Alike.still {member member' : Option Value}
    (h : Alike isDefault (fun _ _ _ => False) name member member') :
    Alike isDefault inside name member member' := by
  match member, member', h with
  | some _, some _, .inl same => exact .inl same
  | some _, none, default | none, some _, default => exact default
  | none, none, _ => trivial

theorem alike_replaced (change : inside name v w) (other : String) :
    Alike isDefault inside other ((front ++ (name, v) :: back).lookup other)
      ((front ++ (name, w) :: back).lookup other) := by
  by_cases same : other = name
  · subst same
    rw [lookup_middle, lookup_middle]
    cases front.lookup other with
    | none => exact .inr change
    | some u => exact .inl rfl
  · rw [lookup_middle_of_ne same, lookup_middle_of_ne same]
    exact .refl _

/-! ### Members of a record that is written otherwise -/

/-- A string that is spelled as it reads. -/
def plain (s : String) : List Glyph := s.toList.map .plain

theorem spelled?_plain (s : String) : spelled? (plain s) = some s := by
  have chars (cs : List Char) : spelledFrom? none (cs.map .plain) = some cs := by
    induction cs with
    | nil => rfl
    | cons c cs ih => simp [spelledFrom?, ih]
  rw [spelled?, plain, chars]
  simp

theorem Recast.members {v w : Value} (recast : Recast fields isDefault inside v w)
    (members : v.members? fields = some named) :
    ∃ named', w.members? fields = some named' ∧ ∀ name ∈ fields,
      Alike isDefault inside name (named.lookup name) (named'.lookup name) := by
  cases recast with
  | permuted order =>
    obtain ⟨known, distinct⟩ := members?_object_eq_some.1 members
    obtain ⟨named', known', order⟩ := exists_named?_of_perm order known
    refine ⟨named', members?_object_eq_some.2 ⟨known', distinct.perm order⟩, fun name mem => ?_⟩
    rw [lookup_eq_of_perm distinct order mem]
    exact .refl _
  | added v spelled unknown =>
    obtain ⟨known, distinct⟩ := members?_object_eq_some.1 members
    obtain ⟨front, back, before, behind, rfl⟩ := named?_append_eq_some.1 known
    refine ⟨_, members?_object_eq_some.2 ⟨(named?_middle_eq_some spelled).2
      ⟨front, back, before, behind, rfl⟩, (distinct_middle_of_unknown unknown).2 distinct⟩,
      fun name mem => ?_⟩
    rw [lookup_middle_of_ne (ne_of_mem_of_not_mem mem unknown)]
    exact .refl _
  | @dropped _ _ _ dropped v spelled default =>
    obtain ⟨known, distinct⟩ := members?_object_eq_some.1 members
    obtain ⟨front, back, before, behind, rfl⟩ := (named?_middle_eq_some spelled).1 known
    refine ⟨_, members?_object_eq_some.2 ⟨named?_append_eq_some.2 ⟨front, back, before, behind, rfl⟩,
      distinct.dropped⟩, fun name mem => ?_⟩
    by_cases same : name = dropped
    · subst same
      -- It was there once, so nothing stands under its name any more.
      have beside := ((distinct_middle mem).1 distinct).1
      have new := beside
      rw [List.lookup_append, Option.or_eq_none_iff] at new
      rw [beside, lookup_middle, new.1]
      exact default
    · rw [lookup_middle_of_ne same]
      exact .refl _
  | entry spelled change =>
    obtain ⟨known, distinct⟩ := members?_object_eq_some.1 members
    obtain ⟨front, back, before, behind, rfl⟩ := (named?_middle_eq_some spelled).1 known
    exact ⟨_, members?_object_eq_some.2 ⟨(named?_middle_eq_some spelled).2
      ⟨front, back, before, behind, rfl⟩, distinct.replaced⟩,
      fun name _ => alike_replaced change name⟩
  | @item front back name v w place change =>
    obtain ⟨short, rfl⟩ := members?_list_eq_some.1 members
    refine ⟨_, members?_list_eq_some.2 ⟨by simpa using short, rfl⟩, fun other _ => ?_⟩
    rw [zip_middle place, zip_middle place]
    exact alike_replaced change other
  | listed members' short same =>
    rw [members, Option.some.injEq] at members'
    subst members'
    refine ⟨_, members?_list_eq_some.2 ⟨short, rfl⟩, fun name mem => ?_⟩
    exact (same name mem).still

end Json

open Json (Value Alike field?)

section Fields

variable {isDefault : String → Value → Prop} {inside : String → Value → Value → Prop}
  {named named' : List (String × Value)} {name : String} {β : Type} {reader : Value → Option β}

/-- A field without a default is there whenever it was, and is read as it was. -/
theorem field?_eq_of_alike
    (alike : Alike isDefault inside name (named.lookup name) (named'.lookup name))
    (never : ∀ v, ¬isDefault name v)
    (kept : ∀ v w, inside name v w → ∀ b, reader v = some b → reader w = some b) {held : Option β}
    (h : field? reader name named = some held) : field? reader name named' = some held := by
  unfold field? at h ⊢
  cases before : named.lookup name with
  | none =>
    cases after : named'.lookup name with
    | none => simpa only [before] using h
    | some w => simp [before, after, Alike, never] at alike
  | some v =>
    cases after : named'.lookup name with
    | none => simp [before, after, Alike, never] at alike
    | some w =>
      rw [before, after] at alike
      rw [before, Option.map_eq_some_iff] at h
      obtain ⟨b, read, rfl⟩ := h
      rcases alike with rfl | change
      · simp [read]
      · simp [kept v w change b read]

/-- A field says the same after a change, if what may be left out is read as its default. -/
theorem field?_of_alike (default : β)
    (alike : Alike isDefault inside name (named.lookup name) (named'.lookup name))
    (defaults : ∀ v, isDefault name v → reader v = some default)
    (kept : ∀ v w, inside name v w → ∀ b, reader v = some b → reader w = some b) {held : Option β}
    (h : field? reader name named = some held) :
    ∃ held', field? reader name named' = some held' ∧ held'.getD default = held.getD default := by
  unfold field? at h ⊢
  cases before : named.lookup name with
  | none =>
    rw [before] at h
    cases h
    cases after : named'.lookup name with
    | none => exact ⟨none, rfl, rfl⟩
    | some w =>
      rw [before, after] at alike
      exact ⟨some default, by simp [defaults w alike], rfl⟩
  | some v =>
    rw [before, Option.map_eq_some_iff] at h
    obtain ⟨b, read, rfl⟩ := h
    cases after : named'.lookup name with
    | none =>
      rw [before, after] at alike
      rw [defaults v alike, Option.some.injEq] at read
      exact ⟨none, rfl, read⟩
    | some w =>
      rw [before, after] at alike
      rcases alike with rfl | change
      · exact ⟨some b, by simp [read], rfl⟩
      · exact ⟨some b, by simp [kept v w change b read], rfl⟩

end Fields

namespace StreamConfig

/-- A member that says what is read without it too. -/
def IsDefault : String → Value → Prop
  | "device_id", v => v.word? = some 0
  | _, _ => False

def Recast : Value → Value → Prop :=
  Json.Recast keys IsDefault fun _ _ _ => False

theorem described?_of_recast {v w : Value} {x : StreamConfig} (recast : Recast v w)
    (described : described? v = some x) : described? w = some x := by
  obtain ⟨named, members, read⟩ := Option.bind_eq_some_iff.1 described
  obtain ⟨named', members', alike⟩ := Json.Recast.members recast members
  simp only [ofMembers?, Option.bind_eq_bind, Option.bind_eq_some_iff] at read
  obtain ⟨category, hc, device, hd, same⟩ := read
  have hc' := field?_eq_of_alike (alike "category" (by decide)) (by simp [IsDefault])
    (fun _ _ change => change.elim) hc
  obtain ⟨device', hd', sameDevice⟩ := field?_of_alike 0
    (alike "device_id" (by decide)) (by simp [IsDefault]) (fun _ _ change => change.elim) hd
  simp [described?, members', ofMembers?, hc', hd', sameDevice, ← same]

end StreamConfig

namespace LoggingConfig

def IsDefault : String → Value → Prop
  | "directives", v => v.orNull? Value.text? = some none
  | "default_directive", v => v.text? = some "info"
  | "include_targets", v | "ansi", v => v.flag? = some true
  | _, _ => False

def Recast : Value → Value → Prop :=
  Json.Recast keys IsDefault fun _ _ _ => False

theorem described?_of_recast {v w : Value} {x : LoggingConfig} (recast : Recast v w)
    (described : described? v = some x) : described? w = some x := by
  obtain ⟨named, members, read⟩ := Option.bind_eq_some_iff.1 described
  obtain ⟨named', members', alike⟩ := Json.Recast.members recast members
  simp only [ofMembers?, Option.bind_eq_bind, Option.bind_eq_some_iff, Option.some.injEq] at read
  obtain ⟨directives, hd, default, hf, targets, ht, ansi, ha, rfl⟩ := read
  obtain ⟨directives', hd', sameDirectives⟩ := field?_of_alike none
    (alike "directives" (by decide)) (by simp [IsDefault]) (fun _ _ change => change.elim) hd
  obtain ⟨default', hf', sameDefault⟩ := field?_of_alike "info"
    (alike "default_directive" (by decide)) (by simp [IsDefault]) (fun _ _ change => change.elim) hf
  obtain ⟨targets', ht', sameTargets⟩ := field?_of_alike true
    (alike "include_targets" (by decide)) (by simp [IsDefault]) (fun _ _ change => change.elim) ht
  obtain ⟨ansi', ha', sameAnsi⟩ := field?_of_alike true
    (alike "ansi" (by decide)) (by simp [IsDefault]) (fun _ _ change => change.elim) ha
  simp [described?, members', ofMembers?, hd', hf', ht', ha', sameDirectives, sameDefault,
    sameTargets, sameAnsi]

end LoggingConfig

namespace MachineConfig

def IsDefault : String → Value → Prop
  | "streams", v => v.list? StreamConfig.described? = some [⟨.host, 0⟩, ⟨.cpu, 0⟩]
  | "logging", v => LoggingConfig.described? v = some ⟨none, "info", true, true⟩
  | _, _ => False

/-- A change in one of the streams, or in the logging section. -/
def Inside : String → Value → Value → Prop
  | "streams" => Json.InItem StreamConfig.Recast
  | "logging" => LoggingConfig.Recast
  | _ => fun _ _ => False

def Recast : Value → Value → Prop := Json.Recast keys IsDefault Inside

/-- The other streams stay as they are. -/
theorem streams_of_inItem {v w : Value} (change : Json.InItem StreamConfig.Recast v w)
    (streams : List StreamConfig) (read : v.list? StreamConfig.described? = some streams) :
    w.list? StreamConfig.described? = some streams := by
  cases change with
  | @item front back v w change =>
    simp only [Value.list?, List.mapM_append, List.mapM_cons, Option.bind_eq_bind,
      Option.bind_eq_some_iff] at read ⊢
    obtain ⟨before, front, _, ⟨x, described, rest⟩, all⟩ := read
    exact ⟨before, front, _, ⟨x, StreamConfig.described?_of_recast change described, rest⟩, all⟩

theorem described?_of_recast {v w : Value} {x : MachineConfig} (recast : Recast v w)
    (described : described? v = some x) : described? w = some x := by
  obtain ⟨named, members, read⟩ := Option.bind_eq_some_iff.1 described
  obtain ⟨named', members', alike⟩ := Json.Recast.members recast members
  simp only [ofMembers?, Option.bind_eq_bind, Option.bind_eq_some_iff, Option.some.injEq] at read
  obtain ⟨streams, hs, logging, hl, rfl⟩ := read
  obtain ⟨streams', hs', sameStreams⟩ := field?_of_alike [⟨.host, 0⟩, ⟨.cpu, 0⟩]
    (alike "streams" (by decide)) (by simp [IsDefault]) (fun _ _ => streams_of_inItem) hs
  obtain ⟨logging', hl', sameLogging⟩ := field?_of_alike ⟨none, "info", true, true⟩
    (alike "logging" (by decide)) (by simp [IsDefault])
    (fun _ _ change _ => LoggingConfig.described?_of_recast change) hl
  simp [described?, members', ofMembers?, hs', hl', sameStreams, sameLogging]

/-- However often it is written otherwise, a document describes the same configuration. -/
theorem described?_of_recasts {v w : Value} {x : MachineConfig}
    (recasts : Relation.ReflTransGen Recast v w) (described : described? v = some x) :
    described? w = some x := by
  induction recasts with
  | refl => exact described
  | tail _ change ih => exact described?_of_recast change ih

/-- One of the streams is written without its category. -/
def Uncategorized (v : Value) : Prop :=
  ∃ named items stream, v.members? keys = some named ∧
    named.lookup "streams" = some (.list items) ∧ stream ∈ items ∧
    ∀ members, stream.members? StreamConfig.keys = some members → members.lookup "category" = none

theorem described?_of_uncategorized {v : Value} (bare : Uncategorized v) : described? v = none := by
  obtain ⟨named, items, stream, members, streams, mem, bare⟩ := bare
  have refused : StreamConfig.described? stream = none := by
    refine Option.bind_eq_none_iff.2 fun members found => ?_
    have category : field? Value.category? "category" members = some none := by
      rw [field?, bare members found]
    cases device : field? Value.word? "device_id" members <;>
      simp [StreamConfig.ofMembers?, category, device]
  obtain ⟨front, back, rfl⟩ := List.append_of_mem mem
  have unread : field? (Value.list? StreamConfig.described?) "streams" named = none := by
    simp [field?, streams, Value.list?, List.mapM_append, List.mapM_cons, refused]
  simp [described?, members, ofMembers?, unread]

/-- A document that describes a configuration may be written otherwise in any number of steps: every
text of what comes of it is read as that configuration. The category of a stream cannot be left out. -/
theorem ofJson_of_recasts {v w : Value} {config : MachineConfig} {text : List Char}
    (described : described? v = some config) (recasts : Relation.ReflTransGen Recast v w)
    (writes : Json.Writes (.value w) text) :
    Json.decodeText decode (String.ofList text) = .ok config ∧
      (ofJson (String.ofList text) = match config.validate with
        | .ok () => .ok config
        | .error error => .error (.invalid error)) ∧
      ∀ bare text', Uncategorized bare → Json.Writes (.value bare) text' →
        ∃ fault, ofJson (String.ofList text') = .error (.unparsable fault) := by
  have read := (decodeText_eq_ok_iff writes).2 (described?_of_recasts recasts described)
  refine ⟨read, ?_, fun bare text' uncategorized writes' => ?_⟩
  · simp only [ofJson, read]
    cases config.validate <;> rfl
  · cases result : Json.decodeText decode (String.ofList text') with
    | error fault => exact ⟨fault, by simp only [ofJson, result]; rfl⟩
    | ok config' =>
      have described := (decodeText_eq_ok_iff writes').1 result
      rw [described?_of_uncategorized uncategorized] at described
      cases described

/-! ### A configuration that is written down at length, and in short -/

def machineValue (streams : List Value) (logging : Value) : Value :=
  .object [(Json.plain "streams", .list streams), (Json.plain "logging", logging)]

theorem recast_stream {front back : List Value} {v w logging : Value}
    (change : StreamConfig.Recast v w) :
    Recast (machineValue (front ++ v :: back) logging) (machineValue (front ++ w :: back) logging) :=
  @Json.Recast.entry _ _ _ [] _ _ "streams" _ _ (Json.spelled?_plain _) (Json.InItem.item change)

theorem recast_logging {streams : List Value} {v w : Value} (change : LoggingConfig.Recast v w) :
    Recast (machineValue streams v) (machineValue streams w) :=
  @Json.Recast.entry _ _ _ [(Json.plain "streams", .list streams)] _ _ "logging" _ _
    (Json.spelled?_plain _) change

def categoryEntry (tag : String) : List Json.Glyph × Value :=
  (Json.plain "category", .string (Json.plain tag))

def deviceEntry (digit : Char) : List Json.Glyph × Value :=
  (Json.plain "device_id", .number ⟨false, [digit], none, none⟩)

def directivesEntry : List Json.Glyph × Value :=
  (Json.plain "directives", .string (Json.plain "info"))

def ansiEntry : List Json.Glyph × Value := (Json.plain "ansi", .bool true)

/-- An entry that means nothing. -/
def noteEntry : List Json.Glyph × Value :=
  (Json.plain "note", .list [.null, .number ⟨true, ['1'], some ['5'], some ⟨'e', none, ['3']⟩⟩])

def spacious : Value :=
  machineValue [.object [categoryEntry "host", deviceEntry '0'],
    .object [categoryEntry "cuda", deviceEntry '1']] (.object [directivesEntry, ansiEntry])

def terse : Value :=
  .list [.list [.list [(categoryEntry "host").2],
    .object [noteEntry, deviceEntry '1', categoryEntry "cuda"]], .object [directivesEntry]]

def terseText : List Char :=
  " [[[\"host\"], \x7b\"note\": [null, -1.5e3], ".toList ++
    "\"device_id\":1,\"category\" : \"cuda\"\x7d],\x7b\"directives\":\"info\"\x7d]\n".toList

/-- The first stream as a list without its device, a note in the second and its category last, the
logging section without its colours, and then all of it as a list. -/
theorem recasts_terse : Relation.ReflTransGen Recast spacious terse := by
  have listed : StreamConfig.Recast (.object [categoryEntry "host", deviceEntry '0'])
      (.list [(categoryEntry "host").2]) := by
    have members : (Value.object [categoryEntry "host", deviceEntry '0']).members?
        StreamConfig.keys =
          some [("category", (categoryEntry "host").2), ("device_id", (deviceEntry '0').2)] :=
      Json.members?_object_eq_some.2
        ⟨by simp [Json.named?, categoryEntry, deviceEntry, Json.spelled?_plain], by decide⟩
    refine .listed members (by decide) fun name mem => ?_
    simp only [StreamConfig.keys, List.mem_cons, List.not_mem_nil, or_false] at mem
    rcases mem with rfl | rfl
    · exact .inl rfl
    · exact rfl
  have noted : StreamConfig.Recast (.object [categoryEntry "cuda", deviceEntry '1'])
      (.object [noteEntry, categoryEntry "cuda", deviceEntry '1']) :=
    @Json.Recast.added _ _ _ [] _ _ _ _ (Json.spelled?_plain "note") (by decide)
  have swapped : StreamConfig.Recast (.object [noteEntry, categoryEntry "cuda", deviceEntry '1'])
      (.object [noteEntry, deviceEntry '1', categoryEntry "cuda"]) := .permuted (.cons _ (.swap ..))
  have dropped : LoggingConfig.Recast (.object [directivesEntry, ansiEntry])
      (.object [directivesEntry]) :=
    @Json.Recast.dropped _ _ _ [directivesEntry] [] _ "ansi" _ (Json.spelled?_plain "ansi") rfl
  have whole (streams : List Value) (logging : Value) :
      Recast (machineValue streams logging) (.list [.list streams, logging]) := by
    have members : (machineValue streams logging).members? keys =
        some [("streams", .list streams), ("logging", logging)] :=
      Json.members?_object_eq_some.2
        ⟨by simp [Json.named?, Json.spelled?_plain], by simp [Json.Distinct, keys]⟩
    refine .listed members (Nat.le_refl 2) fun name mem => ?_
    simp only [keys, List.mem_cons, List.not_mem_nil, or_false] at mem
    rcases mem with rfl | rfl <;> exact .inl rfl
  exact .head (@recast_stream [] _ _ _ _ listed) <| .head (@recast_stream [_] [] _ _ _ noted) <|
    .head (@recast_stream [_] [] _ _ _ swapped) <| .head (recast_logging dropped) <|
    .single (whole _ _)

theorem writes_terse : Json.Writes (.value terse) terseText := by
  have space : Json.Blank [' '] := by decide
  have line : Json.Blank ['\n'] := by decide
  have string (s : String) (valid : ∀ glyph ∈ Json.plain s, glyph.Valid) :
      Json.Writes (.value (.string (Json.plain s))) (Json.quoted (Json.plain s)) := .string valid
  have number : Json.Writes (.value (.number ⟨true, ['1'], some ['5'], some ⟨'e', none, ['3']⟩⟩))
      ['-', '1', '.', '5', 'e', '3'] :=
    .number ⟨by decide, by decide, by decide,
      fun _ same => Option.some.inj same ▸ ⟨.inl rfl, by decide⟩⟩
  have one : Json.Writes (.value (deviceEntry '1').2) ['1'] :=
    .number ⟨by decide, by decide, by decide, nofun⟩
  have host := Json.Writes.list (.lastElement (string "host" (by decide)))
  have note := Json.Writes.list (.element .null (.lastElement (.before space number)))
  have stream := Json.Writes.object (.member (string "note" (by decide)) (.before space note)
    (.member (.before space (string "device_id" (by decide))) one
      (.lastMember (.behind (string "category" (by decide)) space)
        (.before space (string "cuda" (by decide))))))
  have streams := Json.Writes.list (.element host (.lastElement (.before space stream)))
  have logging := Json.Writes.object (.lastMember (string "directives" (by decide))
    (string "info" (by decide)))
  have whole := Json.Writes.list (.element streams (.lastElement logging))
  exact (whole.before space).behind line

theorem ofJson_of_terseText :
    described? spacious = some ⟨[⟨.host, 0⟩, ⟨.accelerator .cuda, 1⟩], {directives := some "info"}⟩ ∧
      Json.Writes (.value terse) terseText ∧ ofJson (String.ofList terseText) =
        .ok ⟨[⟨.host, 0⟩, ⟨.accelerator .cuda, 1⟩], {directives := some "info"}⟩ := by
  have described : described? spacious =
      some ⟨[⟨.host, 0⟩, ⟨.accelerator .cuda, 1⟩], {directives := some "info"}⟩ := by
    decide +kernel
  exact ⟨described, writes_terse, (ofJson_of_recasts described recasts_terse writes_terse).2.1⟩

end MachineConfig

end StreamMachine
