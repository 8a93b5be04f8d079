import StreamMachine.Proofs.Idle
import StreamMachine.Proofs.Nesting
import StreamMachine.Proofs.Registration

/-! Where messages go. The category that was captured for an instruction kind decides on the stream,
when a message is received and when it is enqueued, so an instruction always runs on the device of
that category, whatever its behavior answers later. -/
namespace StreamMachine

namespace World

variable {w : World}

theorem streamOf?_eq_some_iff {category : StreamCategory} {s : Nat}
    (h : w.streamOf? category = some s) :
    ∃ stream, w.streams[s]? = some stream ∧ stream.category = category := by
  obtain ⟨inside, same, -⟩ := List.findIdx?_eq_some_iff_getElem.1 h
  exact ⟨w.streams[s], List.getElem?_eq_getElem inside, by simpa using same⟩

theorem streamOf?_eq_none {category : StreamCategory}
    (h : ∀ stream ∈ w.streams, stream.category ≠ category) : w.streamOf? category = none := by
  rw [streamOf?, List.findIdx?_eq_none_iff]
  exact fun stream mem => beq_false_of_ne (h stream mem)

theorem categoryAt_of_getElem? {s : Nat} {stream : Stream} (found : w.streams[s]? = some stream) :
    w.categoryAt s = stream.category := by
  rw [categoryAt, found]
  rfl

theorem enqueue_eq_accepted {message : Message} {s : Nat}
    (routed : message.descriptor.category = w.categoryAt s) :
    w.enqueue s message = .accepted s message := if_pos routed

theorem enqueue_eq_rejected {message : Message} {s : Nat}
    (other : message.descriptor.category ≠ w.categoryAt s) :
    w.enqueue s message =
      .rejected (.streamMismatch message.name message.descriptor.category (w.categoryAt s)) :=
  if_neg other

/-- The one queue that a message is put on. -/
theorem after_push {s : Nat} {stream : Stream} (found : w.streams[s]? = some stream)
    (message : Message) : w.after (.push s message) =
      { w with streams := w.streams.set s { stream with queue := stream.queue ++ [message] } } := by
  have pushed : w.streams.modify s (·.push message) =
      w.streams.set s { stream with queue := stream.queue ++ [message] } := by
    rw [List.modify_eq_set_getElem?, found]
    rfl
  rw [after, updateStream, pushed]

/-- To receive a message is to have the first stream of its category accept it. -/
theorem receiveMessage_eq_accepted {message : Message}
    (known : ∃ stream ∈ w.streams, stream.category = message.descriptor.category) :
    ∃ s stream, w.streams[s]? = some stream ∧ stream.category = message.descriptor.category ∧
      w.receiveMessage message = .accepted s message := by
  cases place : w.streamOf? message.descriptor.category with
  | none =>
    obtain ⟨stream, mem, same⟩ := known
    rw [streamOf?, List.findIdx?_eq_none_iff] at place
    have := place stream mem
    simp [same] at this
  | some s =>
    obtain ⟨stream, found, same⟩ := streamOf?_eq_some_iff place
    have routed : message.descriptor.category = w.categoryAt s := by
      rw [categoryAt_of_getElem? found, same]
    refine ⟨s, stream, found, same, ?_⟩
    rw [receiveMessage, place]
    exact enqueue_eq_accepted routed

theorem receiveMessage_eq_rejected {message : Message}
    (unknown : ∀ stream ∈ w.streams, stream.category ≠ message.descriptor.category) :
    w.receiveMessage message = .rejected (.noStream message.name message.descriptor.category) := by
  rw [receiveMessage, streamOf?_eq_none unknown]

theorem message_eq_error {name : String} {spec : Option OperandSpec} {operand : Option Operand}
    (made : w.operand? spec = .ok operand) (absent : w.registry.contains name = false) :
    w.message name spec = .error (.violation (.registry (.notFound name))) := by
  have none : w.registry.ids.lookup name = none := by simpa [Registry.contains] using absent
  rw [message, made, Registry.lookup, Registry.tryLookup, Registry.lookup?, none]
  rfl

end World

/-- Commands that have a message of a name received. -/
def Command.Receives (name : String) (operand : Option OperandSpec) : Command → Prop
  | .receive other spec => other = name ∧ some spec = operand
  | .receiveMessage other spec => other = name ∧ spec = operand
  | _ => False

theorem Thread.stepCommand?_of_receives {c : Command} {name : String} {operand : Option OperandSpec}
    (receives : c.Receives name operand) (w : World) (t : Thread) (fresh : Nat)
    (outer : List Frame) : t.stepCommand? w fresh c outer = some (match w.message name operand with
      | .error panic => t.raise outer panic
      | .ok m => t.submit w outer (w.receiveMessage m)) := by
  cases c with
  | receive | receiveMessage =>
    obtain ⟨rfl, rfl⟩ := receives
    rfl
  | _ => exact receives.elim

/-- How messages are delivered in a world, be it one that a machine gets to or not. -/
structure World.Delivers (w : World) : Prop where
  /-- A message of a category that is configured goes to the back of one queue, of a stream of that
  category, and nothing else changes. -/
  delivered : ∀ message : Message,
    (∃ stream ∈ w.streams, stream.category = message.descriptor.category) →
    ∃ s stream, w.streams[s]? = some stream ∧ stream.category = message.descriptor.category ∧
      (w.receiveMessage message).reply = .ok ∧ w.after (w.receiveMessage message).deed =
        { w with streams := w.streams.set s { stream with queue := stream.queue ++ [message] } }
  undelivered : ∀ message : Message,
    (∀ stream ∈ w.streams, stream.category ≠ message.descriptor.category) →
    (w.receiveMessage message).reply =
      .failed (.wiring (.noStream message.name message.descriptor.category)) ∧
    w.after (w.receiveMessage message).deed = w
  matched : ∀ (message : Message) (name : String) (expected actual : StreamCategory),
    (w.receiveMessage message).reply ≠ .failed (.wiring (.streamMismatch name expected actual))
  mismatched : ∀ (s : Nat) (stream : Stream) (message : Message), w.streams[s]? = some stream →
    message.descriptor.category ≠ stream.category →
    (w.enqueue s message).reply = .failed (.wiring
      (.streamMismatch message.name message.descriptor.category stream.category)) ∧
    w.after (w.enqueue s message).deed = w
  /-- A thread that has a message received does just that. -/
  received : ∀ (t : Thread) (fresh : Nat) (outer : List Frame) (c : Command) (name : String)
    (operand : Option OperandSpec) (message : Message), c.Receives name operand →
    w.message name operand = .ok message →
    ∃ r, t.stepCommand? w fresh c outer = some r ∧ r.deed = (w.receiveMessage message).deed ∧
      r.thread = t.give outer (w.receiveMessage message).reply ∧ r.spawned = []
  /-- Under a name that is not registered it panics, and nothing changes. -/
  unregistered : ∀ (t : Thread) (fresh : Nat) (outer : List Frame) (c : Command) (name : String)
    (operand : Option OperandSpec) (made : Option Operand), c.Receives name operand →
    w.operand? operand = .ok made → w.registry.contains name = false →
    ∃ r, t.stepCommand? w fresh c outer = some r ∧ w.after r.deed = w ∧
      r.thread = t.fail outer (.violation (.registry (.notFound name))) ∧ r.spawned = []

theorem World.delivers (w : World) : w.Delivers where
  delivered message known := by
    obtain ⟨s, stream, found, same, accepted⟩ := receiveMessage_eq_accepted known
    exact ⟨s, stream, found, same, by rw [accepted]; rfl, by rw [accepted]; exact after_push found _⟩
  undelivered message unknown := by
    rw [receiveMessage_eq_rejected unknown]
    exact ⟨rfl, rfl⟩
  matched message name expected actual := by
    by_cases known : ∃ stream ∈ w.streams, stream.category = message.descriptor.category
    · obtain ⟨s, stream, -, -, accepted⟩ := receiveMessage_eq_accepted known
      simp [accepted, Submission.reply]
    · rw [receiveMessage_eq_rejected (by simpa using known)]
      simp [Submission.reply]
  mismatched s stream message found other := by
    rw [enqueue_eq_rejected (by rwa [categoryAt_of_getElem? found]), categoryAt_of_getElem? found]
    exact ⟨rfl, rfl⟩
  received t fresh outer c name operand message receives made := by
    refine ⟨_, t.stepCommand?_of_receives receives w fresh outer, ?_⟩
    rw [made]
    exact ⟨rfl, rfl, rfl⟩
  unregistered t fresh outer c name operand made receives resolved absent := by
    refine ⟨_, t.stepCommand?_of_receives receives w fresh outer, ?_⟩
    rw [message_eq_error resolved absent]
    exact ⟨rfl, rfl, rfl⟩

namespace Machine

theorem Reaches.profiles {m₀ m : Machine} {seen : List Occurrence} (run : m₀.Reaches seen m) :
    m.world.profiles = m₀.world.profiles := by
  induction run with
  | refl => rfl
  | move _ last ih =>
    obtain ⟨d, hd⟩ := last.world
    rw [hd, World.profiles_after, ih]

/-- Where the messages and the instructions of a machine are. -/
structure Routed (m : Machine) : Prop where
  distinct : (m.world.streams.map (·.category)).Nodup
  pending : ∀ stream ∈ m.world.streams, ∀ message ∈ stream.queue,
    message.descriptor.category = stream.category
  /-- An instruction runs in a drain of a stream of the category that was captured for it: the one
  that its behavior named when it was registered. -/
  running : ∀ t ∈ m.threads, ∀ inner i phases outer, t.frames = inner ++ .run i phases :: outer →
    ∃ e rest stream, outer = .drain i.stream .execute e :: rest ∧
      m.world.streams[i.stream]? = some stream ∧ i.message.descriptor.category = stream.category ∧
      ∀ (r r' : Registry) (name : String) (behavior : Behavior),
        r.tryRegister name behavior = .ok (.accepted i.message.descriptor r') →
        behavior.category 0 = .ok stream.category
  /-- A callback works on the device of the stream that the instruction runs on. -/
  lent : ∀ t ∈ m.threads, ∀ inner a actions outer,
    t.frames = inner ++ .callback a actions :: outer →
    ∃ i p moves phases e rest stream,
      outer = .phase i p moves :: .run i (p :: phases) :: .drain i.stream .execute e :: rest ∧
      m.world.streams[i.stream]? = some stream ∧ i.message.descriptor.category = stream.category ∧
      a.category = stream.category ∧ a.device = stream.device

theorem Orderly.routed {m : Machine} (h : m.Orderly)
    (distinct : (m.world.profiles.map (·.1)).Nodup) : m.Routed where
  distinct := by simpa [World.profiles, Function.comp_def] using distinct
  pending stream mem message waiting := by
    obtain ⟨s, found⟩ := List.getElem?_of_mem mem
    have held : message ∈ m.world.queueAt s := by rwa [World.queueAt, found]
    rw [h.pending s message held, World.categoryAt_of_getElem? found]
  running t ht inner i phases outer frames := by
    have nested := h.nested t ht
    rw [frames] at nested
    obtain ⟨-, ⟨known, category⟩, e, rest, standing⟩ := nested.of_append.1
    have found := List.getElem?_eq_getElem known
    rw [World.categoryAt_of_getElem? found] at category
    refine ⟨e, rest, _, standing, found, category, ?_⟩
    intro r r' name behavior accepted
    rw [(Registry.of_tryRegister_accepted accepted).2.1, category]
  lent t ht inner a actions outer frames := by
    have nested := h.nested t ht
    rw [frames] at nested
    obtain ⟨⟨i, p, moves, below, rfl, category, device⟩, ⟨phases, under, rfl⟩, run⟩ :=
      nested.of_append
    obtain ⟨⟨-, ⟨known, routed⟩, e, rest, rfl⟩, -⟩ := run
    have found := List.getElem?_eq_getElem known
    rw [World.categoryAt_of_getElem? found] at category routed
    rw [World.deviceAt, found] at device
    exact ⟨i, p, moves, phases, e, rest, _, rfl, found, routed, category, device⟩

/-- A machine from its creation on, with any registry and any behaviors, and the delivery of messages
in any world at all. -/
theorem routed_of_reaches {config : MachineConfig} {registry : Registry} {w : World}
    (created : World.create config registry = .ok w) {m : Machine} {seen : List Occurrence}
    (run : Reaches ⟨w, []⟩ seen m) : m.Routed ∧ ∀ v : World, v.Delivers := by
  have distinct : (m.world.profiles.map (·.1)).Nodup := by
    rw [run.profiles]
    exact World.distinct_create created
  exact ⟨(run.orderly (.init created)).routed distinct, World.delivers⟩

/-- A behavior that lends its blob, and would be of another category if it were asked again. -/
def shifting : Behavior := ⟨fun n => .ok (if n = 0 then .cpu else .host), [], [.lendBlob .write .cpu]⟩

/-- The pair of streams with an instruction kind of that behavior. -/
def shiftingPair : World :=
  { idlePair with registry := Registry.empty.insert ⟨"shift", 0, .cpu, shifting⟩ }

/-- The machine in the middle of a callback, which has just read the blob it is lent. -/
def shiftingLent : Machine :=
  let make := Command.store (.newBlob "a" (.words ⟨[1]⟩ [7]))
  let made := (Machine.run 1 ⟨shiftingPair, [.ofCommand make]⟩).1
  let submit := Command.receive "shift" (.write "a" [.access .readWords])
  let submitted := (Machine.run 1 ⟨made.world, made.threads ++ [.ofCommand submit]⟩).1
  (Machine.run 18 ⟨submitted.world, submitted.threads ++ [.ofCommand .schedule]⟩).1

theorem reaches_shiftingLent : ∃ seen, Reaches ⟨shiftingPair, []⟩ seen shiftingLent := by
  have made := (Reaches.refl.move (Moves.call (m := ⟨shiftingPair, []⟩)
    (.store (.newBlob "a" (.words ⟨[1]⟩ [7]))))).goOn 1
  have submitted := (made.move (.call (.receive "shift" (.write "a" [.access .readWords])))).goOn 1
  exact ⟨_, (submitted.move (.call .schedule)).goOn 18⟩

/-- The behavior would name the other stream now. -/
theorem routed_in_shifting_callback : ∃ seen,
    World.create {} shiftingPair.registry = .ok shiftingPair ∧
    Reaches ⟨shiftingPair, []⟩ seen shiftingLent ∧ shifting.category 1 = .ok .host ∧
    (∃ t ∈ shiftingLent.threads, ∃ f a actions outer,
      t.frames = f :: .callback a actions :: outer ∧ a.category = .cpu) ∧
    (shiftingLent.Routed ∧ ∀ v : World, v.Delivers) := by
  obtain ⟨seen, run⟩ := reaches_shiftingLent
  have created : World.create {} shiftingPair.registry = .ok shiftingPair := rfl
  exact ⟨seen, created, run, rfl, ⟨_, List.mem_of_getElem? (i := 2) rfl, _, _, _, _, rfl, rfl⟩,
    routed_of_reaches created run⟩

end Machine

end StreamMachine
