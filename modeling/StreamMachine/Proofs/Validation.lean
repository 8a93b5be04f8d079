import StreamMachine.Config.Load
import StreamMachine.Proofs.Routing

/-! Configurations that are accepted. The check refuses no configuration but those without streams
and those that repeat a category, and names the first category that is repeated. A machine is made
from exactly what it accepts, with one stream for each entry, and a category then selects the stream
of the one entry that has it. -/
namespace StreamMachine

/-- The category that is found is the first that has been seen before, be it by the caller or
further left in the list. -/
theorem firstRepeat?_eq_some_iff {seen l : List StreamCategory} {c : StreamCategory} :
    firstRepeat? seen l = some c ↔ ∃ before after, l = before ++ c :: after ∧ before.Nodup ∧
      (∀ d ∈ before, d ∉ seen) ∧ (c ∈ seen ∨ c ∈ before) := by
  induction l generalizing seen with
  | nil => simp [firstRepeat?]
  | cons d l ih =>
    rw [firstRepeat?]
    split
    next seen_before =>
      have old : d ∈ seen := List.contains_iff_mem.1 seen_before
      constructor
      · rintro ⟨rfl⟩
        exact ⟨[], l, rfl, List.nodup_nil, by simp, .inl old⟩
      · rintro ⟨before, after, same, -, new, -⟩
        cases before with
        | nil => rw [(List.cons.inj same).1]
        | cons b before => exact absurd old ((List.cons.inj same).1 ▸ new b List.mem_cons_self)
    next unseen =>
      have fresh : d ∉ seen := fun mem => unseen (List.contains_iff_mem.2 mem)
      rw [ih]
      constructor
      · rintro ⟨before, after, rfl, distinct, new, again⟩
        refine ⟨d :: before, after, rfl, List.nodup_cons.2 ⟨fun mem => ?_, distinct⟩, ?_, ?_⟩
        · exact new d mem List.mem_cons_self
        · rintro e (_ | ⟨_, mem⟩)
          · exact fresh
          · exact fun old => new e mem (List.mem_cons_of_mem d old)
        · simp only [List.mem_cons] at again ⊢
          tauto
      · rintro ⟨before, after, same, distinct, new, again⟩
        cases before with
        | nil =>
          obtain ⟨rfl, -⟩ := List.cons.inj same
          simp [fresh] at again
        | cons b before =>
          obtain ⟨rfl, rfl⟩ := List.cons.inj same
          obtain ⟨apart, distinct⟩ := List.nodup_cons.1 distinct
          refine ⟨before, after, rfl, distinct, fun e mem => ?_, ?_⟩
          · rintro (_ | ⟨_, old⟩)
            · exact apart mem
            · exact new e (List.mem_cons_of_mem d mem) old
          · simp only [List.mem_cons] at again ⊢
            tauto

theorem firstRepeat?_nil_eq_none_iff {l : List StreamCategory} :
    firstRepeat? [] l = none ↔ l.Nodup := by
  refine ⟨fun none => (nodup_of_firstRepeat? none).1, fun distinct => ?_⟩
  rw [Option.eq_none_iff_forall_ne_some]
  intro c found
  obtain ⟨before, after, rfl, -, -, again⟩ := firstRepeat?_eq_some_iff.1 found
  have twice : c ∈ before := by simpa using again
  exact (List.nodup_append.1 distinct).2.2 c twice c List.mem_cons_self rfl

namespace MachineConfig

/-- An entry with a category of an earlier one, behind entries of different categories. -/
def FirstRepeat (config : MachineConfig) (c : StreamCategory) : Prop :=
  ∃ before entry after, config.streams = before ++ entry :: after ∧ entry.category = c ∧
    (before.map (·.category)).Nodup ∧ ∃ earlier ∈ before, earlier.category = c

theorem firstRepeat_iff {config : MachineConfig} {c : StreamCategory} :
    config.FirstRepeat c ↔ firstRepeat? [] config.categories = some c := by
  rw [firstRepeat?_eq_some_iff]
  constructor
  · rintro ⟨before, entry, after, same, rfl, distinct, earlier⟩
    refine ⟨before.map (·.category), after.map (·.category), ?_, distinct, by simp, ?_⟩
    · rw [categories, same, List.map_append, List.map_cons]
    · simpa using earlier
  · rintro ⟨before, after, same, distinct, -, again⟩
    obtain ⟨first, rest, split, rfl, tail⟩ := List.map_eq_append_iff.1 same
    obtain ⟨entry, last, rfl, rfl, -⟩ := List.map_eq_cons_iff.1 tail
    exact ⟨first, entry, last, split, rfl, distinct, by simpa using again⟩

variable {config : MachineConfig}

theorem validate_eq_noStreams_iff : config.validate = .error .noStreams ↔ config.streams = [] := by
  rw [validate, ← List.isEmpty_iff]
  split
  next empty => simp [empty]
  next some => split <;> simp [some]

theorem validate_eq_repeatedCategory_iff {c : StreamCategory} :
    config.validate = .error (.repeatedCategory c) ↔ config.FirstRepeat c := by
  rw [firstRepeat_iff, validate]
  split
  next empty => simp [categories, List.isEmpty_iff.1 empty, firstRepeat?]
  · split
    next found => simp [found]
    next none => simp [none]

theorem validate_eq_ok_iff :
    config.validate = .ok () ↔ config.streams ≠ [] ∧ config.categories.Nodup := by
  rw [← firstRepeat?_nil_eq_none_iff, validate, ne_eq, ← List.isEmpty_iff]
  split
  next empty => simp [empty]
  next some =>
    split
    next found => simp [found]
    next none => simp [none, some]

/-- What the check decides, and what it says. -/
structure Checks (config : MachineConfig) : Prop where
  accepts : config.validate = .ok () ↔ config.streams ≠ [] ∧ config.categories.Nodup
  empty : config.validate = .error .noStreams ↔ config.streams = []
  repeats (c : StreamCategory) :
    config.validate = .error (.repeatedCategory c) ↔ config.FirstRepeat c
  message_noStreams : ConfigError.noStreams.message = "invalid configuration: no streams configured"
  message_repeatedCategory (c : StreamCategory) : (ConfigError.repeatedCategory c).message =
    "invalid configuration: stream category '" ++ c.tag ++ "' configured more than once"

theorem checks (config : MachineConfig) : config.Checks where
  accepts := validate_eq_ok_iff
  empty := validate_eq_noStreams_iff
  repeats _ := validate_eq_repeatedCategory_iff
  message_noStreams := rfl
  message_repeatedCategory _ := rfl

end MachineConfig

/-- Each entry of a configuration is found by its category, at its position. -/
structure World.Indexed (config : MachineConfig) (w : World) : Prop where
  found {i : Nat} {entry : StreamConfig} (there : config.streams[i]? = some entry) :
    w.streamOf? entry.category = some i ∧ ∃ stream, w.streams[i]? = some stream ∧
      stream.category = entry.category ∧ stream.device = entry.device ∧
      w.query (.stream entry.category) =
        .ok (.stream entry.category entry.device stream.debugText)
  unique {i j : Nat} {entry other : StreamConfig} (there : config.streams[i]? = some entry)
    (there' : config.streams[j]? = some other) (same : entry.category = other.category) : i = j
  absent {c : StreamCategory} (unused : ∀ entry ∈ config.streams, entry.category ≠ c) :
    w.streamOf? c = none ∧ w.query (.stream c) = .ok .nothing

namespace World

variable {config : MachineConfig} {registry : Registry} {w : World}

theorem query_stream (w : World) (c : StreamCategory) :
    w.query (.stream c) = .ok (((w.streamOf? c).bind (w.streams[·]?)).elim .nothing
      fun stream => .stream stream.category stream.device stream.debugText) := by
  rw [query, List.find?_eq_bind_findIdx?_getElem?, streamOf?]
  cases (w.streams.findIdx? _).bind _ <;> rfl

theorem indexed (distinct : config.categories.Nodup)
    (profiles : w.profiles = config.streams.map fun entry => (entry.category, entry.device)) :
    w.Indexed config := by
  have unique {i j : Nat} {entry other : StreamConfig} (there : config.streams[i]? = some entry)
      (there' : config.streams[j]? = some other) (same : entry.category = other.category) :
      i = j := by
    have inside : i < config.categories.length := by
      rw [MachineConfig.categories, List.length_map]
      exact (List.getElem?_eq_some_iff.1 there).1
    refine (List.getElem?_inj inside distinct).1 ?_
    rw [MachineConfig.categories, List.getElem?_map, List.getElem?_map, there, there']
    exact congrArg some same
  have holds {i : Nat} {stream : Stream} (here : w.streams[i]? = some stream) :
      ∃ entry, config.streams[i]? = some entry ∧ stream.category = entry.category ∧
        stream.device = entry.device := by
    have same : w.profiles[i]? = some (stream.category, stream.device) := by
      rw [World.profiles, List.getElem?_map, here]
      rfl
    rw [profiles, List.getElem?_map, Option.map_eq_some_iff] at same
    obtain ⟨entry, there, same⟩ := same
    obtain ⟨category, device⟩ := Prod.mk.inj same
    exact ⟨entry, there, category.symm, device.symm⟩
  refine ⟨fun {i entry} there => ?_, unique, fun {c} unused => ?_⟩
  · have same : w.profiles[i]? = some (entry.category, entry.device) := by
      rw [profiles, List.getElem?_map, there]
      rfl
    rw [World.profiles, List.getElem?_map, Option.map_eq_some_iff] at same
    obtain ⟨stream, here, same⟩ := same
    obtain ⟨category, device⟩ := Prod.mk.inj same
    have selected : w.streamOf? entry.category = some i := by
      cases place : w.streamOf? entry.category with
      | none =>
        rw [streamOf?, List.findIdx?_eq_none_iff] at place
        simpa [category] using place stream (List.mem_of_getElem? here)
      | some j =>
        obtain ⟨other, here', same⟩ := streamOf?_eq_some_iff place
        obtain ⟨entry', there', category', -⟩ := holds here'
        rw [unique there there' (same.symm.trans category')]
    refine ⟨selected, stream, here, category, device, ?_⟩
    rw [query_stream, selected, Option.bind_some, here, ← category, ← device]
    rfl
  · have unselected : w.streamOf? c = none := by
      refine streamOf?_eq_none fun stream mem same => ?_
      obtain ⟨i, here⟩ := List.getElem?_of_mem mem
      obtain ⟨entry, there, category, -⟩ := holds here
      exact unused entry (List.mem_of_getElem? there) (category.symm.trans same)
    refine ⟨unselected, ?_⟩
    rw [query_stream, unselected]
    rfl

/-- How a machine is made from a configuration. -/
structure Makes (config : MachineConfig) (registry : Registry) : Prop where
  made : (∃ w, World.create config registry = .ok w) ↔ config.validate = .ok ()
  /-- What the check refuses is refused with the same error, in the same words. -/
  refused (error : WiringError) : World.create config registry = .error error ↔
    ∃ reason, config.validate = .error reason ∧ error = .invalidConfig reason
  message (reason : ConfigError) : (WiringError.invalidConfig reason).message = reason.message
  streams {w : World} (h : World.create config registry = .ok w) :
    w.streams = config.streams.map fun entry =>
      { category := entry.category, device := entry.device, queue := [], executing := false,
        completed := 0 }
  /-- At once, and after anything that the machine has done since. -/
  indexed {w : World} (h : World.create config registry = .ok w) {m : Machine}
    {seen : List Occurrence} (run : Machine.Reaches ⟨w, []⟩ seen m) : m.world.Indexed config

theorem create_eq_ok_iff : World.create config registry = .ok w ↔ config.validate = .ok () ∧ w =
    { registry := registry
      streams := config.streams.map fun s => { category := s.category, device := s.device } } := by
  rw [create]
  split
  next refused => simp [refused]
  next valid => simp [valid, eq_comm]

theorem create_eq_error_iff {error : WiringError} : World.create config registry = .error error ↔
    ∃ reason, config.validate = .error reason ∧ error = .invalidConfig reason := by
  rw [create]
  split
  next reason refused => simp [refused, eq_comm]
  next valid => simp [valid]

theorem makes (config : MachineConfig) (registry : Registry) : World.Makes config registry where
  made := by simp only [create_eq_ok_iff, exists_and_left, exists_eq, and_true]
  refused _ := create_eq_error_iff
  message _ := rfl
  streams h := by
    obtain ⟨-, rfl⟩ := create_eq_ok_iff.1 h
    rfl
  indexed {w} h {m} {seen} run := by
    obtain ⟨valid, rfl⟩ := create_eq_ok_iff.1 h
    refine World.indexed (MachineConfig.validate_eq_ok_iff.1 valid).2 ?_
    rw [run.profiles, profiles, List.map_map]
    rfl

end World

namespace MachineConfig

theorem validate_of_ofJson {text : String} {config : MachineConfig}
    (h : MachineConfig.ofJson text = .ok config) : config.validate = .ok () := by
  rw [ofJson] at h
  split at h
  · cases h
  next config' _ =>
    split at h <;> cases h
    next valid => exact valid

theorem validate_of_ofFile {path : String} {contents : FileContents} {config : MachineConfig}
    (h : MachineConfig.ofFile path contents = .ok config) : config.validate = .ok () := by
  have loaded (text : String) (h : (ofJson text).mapError (LoadError.inFile path) = .ok config) :
      config.validate = .ok () :=
    validate_of_ofJson (mapError_eq_ok h)
  cases contents with
  | missing => cases h
  | text contents => exact loaded contents h
  | bytes contents =>
    simp only [ofFile] at h
    split at h
    next text _ => exact loaded text h
    · cases h

/-- Validation, the machines that are made, and the configurations that are loaded agree. -/
theorem valid_iff_made (config : MachineConfig) (registry : Registry) :
    config.Checks ∧ World.Makes config registry ∧
      (∀ text, MachineConfig.ofJson text = .ok config →
        ∃ w, World.create config registry = .ok w) ∧
      ∀ path contents, MachineConfig.ofFile path contents = .ok config →
        ∃ w, World.create config registry = .ok w := by
  have makes := World.makes config registry
  exact ⟨config.checks, makes, fun _ loaded => makes.made.2 (validate_of_ofJson loaded),
    fun _ _ loaded => makes.made.2 (validate_of_ofFile loaded)⟩

/-- The third entry is the first that repeats an earlier one, though of the second and not of the
first. -/
example : validate { streams := [⟨.cpu, 0⟩, ⟨.host, 0⟩, ⟨.host, 1⟩, ⟨.cpu, 1⟩] } =
    .error (.repeatedCategory .host) := rfl

end MachineConfig

end StreamMachine
