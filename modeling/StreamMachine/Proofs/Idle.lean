import StreamMachine.Proofs.Alike
import StreamMachine.Proofs.Guard

/-! Worlds between drains, and worlds that differ in the order of their streams only. -/
namespace StreamMachine

variable {f : Equiv.Perm Nat}

theorem nodup_of_firstRepeat? {seen l : List StreamCategory} (h : firstRepeat? seen l = none) :
    l.Nodup ∧ ∀ c ∈ l, c ∉ seen := by
  induction l generalizing seen with
  | nil => simp
  | cons c l ih =>
    rw [firstRepeat?] at h
    split at h
    · cases h
    next new =>
      obtain ⟨distinct, apart⟩ := ih h
      refine ⟨List.nodup_cons.2 ⟨fun mem => apart c mem List.mem_cons_self, distinct⟩, ?_⟩
      intro d hd
      obtain rfl | hd := List.mem_cons.1 hd
      · simpa using new
      · exact fun mem => apart d hd (List.mem_cons_of_mem c mem)

namespace World

/-- Category of the stream at a position, if there is one. -/
def categoryOf? (w : World) (s : Nat) : Option StreamCategory := (w.profiles[s]?).map (·.1)

/-- A world between drains: all guards are free, and the streams are of different categories. -/
structure Idle (w : World) : Prop where
  free : ∀ s, w.executingAt s = false
  tidy : w.Tidy
  distinct : ∀ i j category, w.categoryOf? i = some category → w.categoryOf? j = some category → i = j

theorem distinct_create {config : MachineConfig} {registry : Registry} {w : World}
    (created : World.create config registry = .ok w) : (w.profiles.map (·.1)).Nodup := by
  simp only [World.create] at created
  split at created <;> cases created
  next valid =>
    rw [MachineConfig.validate] at valid
    split at valid
    · cases valid
    · split at valid
      · cases valid
      next none =>
        have distinct := (nodup_of_firstRepeat? none).1
        simpa [profiles, MachineConfig.categories, Function.comp_def] using distinct

/-- A machine whose calls have all come to an end leaves an idle world. -/
theorem idle_of_reaches {config : MachineConfig} {registry : Registry} {w : World}
    (created : World.create config registry = .ok w) {m : Machine} {seen : List Occurrence}
    (run : Machine.Reaches ⟨w, []⟩ seen m) (ended : ∀ t ∈ m.threads, t.frames = []) :
    m.world.Idle := by
  have guarded := run.guarded (.init w (World.executingAt_create created))
  have kept : m.world.Tidy ∧ m.world.profiles = w.profiles := by
    clear guarded ended
    induction run with
    | refl =>
      simp only [World.create] at created
      split at created <;> cases created
      exact ⟨List.nodup_nil, rfl⟩
    | move run last ih =>
      obtain ⟨d, hd⟩ := last.world
      rw [hd, profiles_after]
      exact ⟨ih.1.after d, ih.2⟩
  refine ⟨guarded.free ended, kept.1, fun i j category hi hj => ?_⟩
  have distinct := distinct_create created
  rw [← kept.2] at distinct
  rw [categoryOf?, ← List.getElem?_map] at hi hj
  obtain ⟨inside, -⟩ := List.getElem?_eq_some_iff.1 hi
  exact (List.getElem?_inj inside distinct).1 (hi.trans hj.symm)

/-- The same world with its streams in another order: `f` tells where each stream is. -/
structure Reordered (f : Equiv.Perm Nat) (w w' : World) : Prop where
  registry : w'.registry = w.registry
  store : w'.store = w.store
  directory : w'.directory = w.directory
  signals : w'.signals = w.signals
  streams : ∀ s : Nat, w'.streams[f s]? = w.streams[s]?
  fixed : ∀ s, w.streams.length ≤ s → f s = s

/-- Two configurations with the same streams make the same machine but for the order of the
streams. -/
theorem reordered_create {config config' : MachineConfig} {registry : Registry} {w w' : World}
    (created : World.create config registry = .ok w)
    (created' : World.create config' registry = .ok w')
    (streams : ∀ s : Nat, config'.streams[f s]? = config.streams[s]?)
    (fixed : ∀ s, config.streams.length ≤ s → f s = s) : Reordered f w w' := by
  simp only [World.create] at created created'
  split at created <;> cases created
  split at created' <;> cases created'
  refine ⟨rfl, rfl, rfl, rfl, fun s => ?_, by simpa using fixed⟩
  simp only [List.getElem?_map, streams]

/-- The same deed in both orders. -/
theorem Reordered.after {w w' : World} (h : Reordered f w w') (d : Deed) :
    Reordered f (w.after d) (w'.after (d.moved f)) := by
  have atStream (s : Nat) (g : Stream → Stream) :
      Reordered f (w.updateStream s g) (w'.updateStream (f s) g) := by
    refine ⟨h.registry, h.store, h.directory, h.signals, fun i => ?_, ?_⟩
    · simp only [getElem?_updateStream, f.injective.eq_iff, h.streams]
    · simpa [updateStream] using h.fixed
  obtain ⟨registry, streams, store, directory, signals⟩ := w
  obtain ⟨registry', streams', store', directory', signals'⟩ := w'
  obtain ⟨rfl, rfl, rfl, rfl, moved, fixed⟩ := h
  cases d with
  | push s | pop s | setExecuting s | complete s => exact atStream s _
  | _ => exact ⟨rfl, rfl, rfl, rfl, moved, fixed⟩

/-- Messages are received one after another. -/
def receiveAll (w : World) (messages : List Message) : World :=
  messages.foldl (fun w m => w.after (w.receiveMessage m).deed) w

/-- The messages of a category, in order. -/
def ofCategory (category : StreamCategory) (messages : List Message) : List Message :=
  messages.filter fun m => m.descriptor.category == category

theorem Idle.streamOf?_iff {w : World} (idle : w.Idle) {category : StreamCategory} {s : Nat} :
    w.streamOf? category = some s ↔ w.categoryOf? s = some category := by
  rw [streamOf?_eq, List.findIdx?_eq_some_iff_getElem, categoryOf?]
  constructor
  · rintro ⟨inside, same, -⟩
    rw [List.getElem?_eq_getElem inside]
    simpa using same
  · intro found
    obtain ⟨profile, at_s, same⟩ := Option.map_eq_some_iff.1 found
    obtain ⟨inside, at_s'⟩ := List.getElem?_eq_some_iff.1 at_s
    refine ⟨inside, by simpa [at_s'] using same, fun j hj earlier => ?_⟩
    have at_j : w.categoryOf? j = some category := by
      rw [categoryOf?, List.getElem?_eq_getElem (hj.trans inside)]
      simpa using earlier
    have := idle.distinct j s category at_j found
    omega

theorem Reordered.categoryOf? {w w' : World} (h : Reordered f w w') (s : Nat) :
    w'.categoryOf? (f s) = w.categoryOf? s := by
  rw [World.categoryOf?, World.categoryOf?, profiles, profiles, List.getElem?_map, List.getElem?_map,
    h.streams]

theorem Reordered.idle {w w' : World} (h : Reordered f w w') (idle : w.Idle) : w'.Idle where
  free s := by
    rw [← f.apply_symm_apply s, executingAt, h.streams]
    exact idle.free (f.symm s)
  tidy := by rw [Tidy, h.store]; exact idle.tidy
  distinct i j category hi hj := by
    rw [← f.apply_symm_apply i, h.categoryOf?] at hi
    rw [← f.apply_symm_apply j, h.categoryOf?] at hj
    exact f.symm.injective (idle.distinct _ _ category hi hj)

theorem Reordered.streamOf? {w w' : World} (h : Reordered f w w') (idle : w.Idle)
    (category : StreamCategory) : w'.streamOf? category = (w.streamOf? category).map f := by
  refine Option.ext fun s => ?_
  rw [(h.idle idle).streamOf?_iff, Option.map_eq_some_iff, ← f.apply_symm_apply s, h.categoryOf?,
    ← idle.streamOf?_iff]
  constructor
  · exact fun found => ⟨_, found, rfl⟩
  · rintro ⟨i, found, same⟩
    rwa [← f.injective same]

theorem Idle.receiveMessage {w : World} (idle : w.Idle) (m : Message) :
    (w.receiveMessage m).deed = match w.streamOf? m.descriptor.category with
      | some i => .push i m
      | none => .nothing := by
  rw [World.receiveMessage]
  cases found : w.streamOf? m.descriptor.category with
  | none => rfl
  | some i =>
    have at_i := idle.streamOf?_iff.1 found
    have same : w.categoryAt i = m.descriptor.category := by
      rw [categoryAt_eq]
      obtain ⟨profile, at_i, same⟩ := Option.map_eq_some_iff.1 at_i
      rw [at_i]
      exact same
    simp [enqueue, same, Submission.deed]

theorem Idle.after_receiveMessage {w : World} (idle : w.Idle) (m : Message) :
    (w.after (w.receiveMessage m).deed).Idle := by
  have quiet (s : Nat) (b : Bool) : (w.receiveMessage m).deed ≠ .setExecuting s b := by
    rw [idle.receiveMessage]
    split <;> simp
  refine ⟨fun s => ?_, idle.tidy.after _, fun i j category => ?_⟩
  · rw [executingAt_after quiet]
    exact idle.free s
  · rw [categoryOf?, categoryOf?, profiles_after]
    exact idle.distinct i j category

theorem Idle.streams_receiveMessage {w : World} (idle : w.Idle) (m : Message) (s : Nat) :
    (w.after (w.receiveMessage m).deed).streams[s]? = (w.streams[s]?).map fun stream =>
      { stream with queue := stream.queue ++ ofCategory stream.category [m] } := by
  have category {stream : Stream} (at_s : w.streams[s]? = some stream) :
      w.streamOf? m.descriptor.category = some s ↔ stream.category = m.descriptor.category := by
    rw [idle.streamOf?_iff, categoryOf?, profiles, List.getElem?_map, at_s]
    simp
  rw [idle.receiveMessage]
  cases at_s : w.streams[s]? with
  | none =>
    split
    · rw [after, getElem?_updateStream, at_s]
      split <;> rfl
    · exact at_s
  | some stream =>
    split
    next i found =>
      rw [after, getElem?_updateStream, at_s]
      by_cases hi : i = s
      · subst hi
        have same := (category at_s).1 found
        simp [Stream.push, ofCategory, same]
      · have other : m.descriptor.category ≠ stream.category := fun e => hi <| by
          rw [(category at_s).2 e.symm] at found
          exact (Option.some.inj found).symm
        simp [hi, ofCategory, other]
    next none =>
      have other : m.descriptor.category ≠ stream.category := fun e => by
        rw [(category at_s).2 e.symm] at none
        cases none
      rw [after, at_s]
      simp [ofCategory, other]

theorem Idle.receiveAll {w : World} (idle : w.Idle) (messages : List Message) :
    (w.receiveAll messages).Idle := by
  induction messages generalizing w with
  | nil => exact idle
  | cons m messages ih => exact ih (idle.after_receiveMessage m)

/-- What has been received stands at the end of the queues, each message with its category and in
the order of receiving. -/
theorem Idle.streams_receiveAll {w : World} (idle : w.Idle) (messages : List Message) (s : Nat) :
    (w.receiveAll messages).streams[s]? = (w.streams[s]?).map fun stream =>
      { stream with queue := stream.queue ++ ofCategory stream.category messages } := by
  induction messages generalizing w with
  | nil =>
    change w.streams[s]? = _
    cases w.streams[s]? <;> simp [ofCategory]
  | cons m messages ih =>
    have step : w.receiveAll (m :: messages) =
        (w.after (w.receiveMessage m).deed).receiveAll messages := rfl
    rw [step, ih (idle.after_receiveMessage m), idle.streams_receiveMessage m, Option.map_map]
    congr 1
    funext stream
    have split := List.filter_append [m] messages
      (p := fun x => x.descriptor.category == stream.category)
    simp [ofCategory, ← split]

theorem Idle.receiveAll_rest {w : World} (idle : w.Idle) (messages : List Message) :
    (w.receiveAll messages).registry = w.registry ∧ (w.receiveAll messages).store = w.store ∧
      (w.receiveAll messages).directory = w.directory ∧
      (w.receiveAll messages).signals = w.signals := by
  induction messages generalizing w with
  | nil => exact ⟨rfl, rfl, rfl, rfl⟩
  | cons m messages ih =>
    have rest := ih (idle.after_receiveMessage m)
    rw [idle.receiveMessage] at rest
    have step : w.receiveAll (m :: messages) =
        (w.after (w.receiveMessage m).deed).receiveAll messages := rfl
    rw [step, idle.receiveMessage]
    split at rest <;> exact rest

/-- However messages to different streams are interleaved, and in whatever order the streams stand,
the queues come to the same. -/
theorem Reordered.receiveAll {w w' : World} (h : Reordered f w w') (idle : w.Idle)
    {messages messages' : List Message}
    (same : ∀ category, ofCategory category messages = ofCategory category messages') :
    Reordered f (w.receiveAll messages) (w'.receiveAll messages') := by
  obtain ⟨registry, store, directory, signals⟩ := idle.receiveAll_rest messages
  obtain ⟨registry', store', directory', signals'⟩ := (h.idle idle).receiveAll_rest messages'
  refine ⟨?_, ?_, ?_, ?_, fun s => ?_, fun s hs => ?_⟩
  · rw [registry, registry', h.registry]
  · rw [store, store', h.store]
  · rw [directory, directory', h.directory]
  · rw [signals, signals', h.signals]
  · rw [idle.streams_receiveAll, (h.idle idle).streams_receiveAll, h.streams]
    simp only [same]
  · refine h.fixed s ?_
    have := idle.streams_receiveAll messages s
    rw [List.getElem?_eq_none hs] at this
    simpa using this.symm

end World

/-- To receive messages is to make that many moves. -/
theorem Machine.Reaches.receiveAll {m₀ : Machine} {w : World} {threads : List Thread}
    {seen : List Occurrence} (run : Machine.Reaches m₀ seen ⟨w, threads⟩) (messages : List Message) :
    ∃ seen', Machine.Reaches m₀ seen' ⟨w.receiveAll messages, threads⟩ := by
  induction messages generalizing w seen with
  | nil => exact ⟨seen, run⟩
  | cons m messages ih =>
    have moved : ∃ seen', Machine.Reaches m₀ seen' ⟨w.after (w.receiveMessage m).deed, threads⟩ := by
      rw [World.receiveMessage]
      split
      next s found =>
        rw [World.enqueue]
        split
        next category =>
          have accepted : w.enqueue s m = .accepted s m := by rw [World.enqueue, if_pos category]
          exact ⟨_, run.move (.offer s m (World.lt_of_streamOf? found) accepted)⟩
        · exact ⟨seen, run⟩
      · exact ⟨seen, run⟩
    obtain ⟨seen', moved⟩ := moved
    exact ih moved

end StreamMachine
