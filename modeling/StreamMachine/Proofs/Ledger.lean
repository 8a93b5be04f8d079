import StreamMachine.Proofs.Reach

/-! The ledger of a queue: what a stream has accepted is what it has started, in the same order,
followed by what it holds. -/
namespace StreamMachine

namespace Occurrence

/-- The message that a stream has accepted here. -/
def acceptedOn? (s : Nat) : Occurrence → Option Message
  | accepted i m => if i = s then some m else none
  | _ => none

/-- The message that a drain of a stream has started here. -/
def startedOn? (s : Nat) : Occurrence → Option Message
  | started i m => if i = s then some m else none
  | _ => none

end Occurrence

/-- The messages that a stream has accepted, in order. -/
def acceptedOn (s : Nat) (seen : List Occurrence) : List Message :=
  seen.filterMap (·.acceptedOn? s)

/-- The messages that drains of a stream have started, in order. -/
def startedOn (s : Nat) (seen : List Occurrence) : List Message :=
  seen.filterMap (·.startedOn? s)

@[simp] theorem acceptedOn_append (s : Nat) (xs ys : List Occurrence) :
    acceptedOn s (xs ++ ys) = acceptedOn s xs ++ acceptedOn s ys := List.filterMap_append

@[simp] theorem startedOn_append (s : Nat) (xs ys : List Occurrence) :
    startedOn s (xs ++ ys) = startedOn s xs ++ startedOn s ys := List.filterMap_append

theorem acceptedOn_calm {seen : List Occurrence} (h : ∀ o ∈ seen, o.Calm) (s : Nat) :
    acceptedOn s seen = [] := by
  simp only [acceptedOn, List.filterMap_eq_nil_iff]
  intro o ho
  have := h o ho
  cases o <;> first | rfl | exact this.elim

theorem startedOn_calm {seen : List Occurrence} (h : ∀ o ∈ seen, o.Calm) (s : Nat) :
    startedOn s seen = [] := by
  simp only [startedOn, List.filterMap_eq_nil_iff]
  intro o ho
  have := h o ho
  cases o <;> first | rfl | exact this.elim

/-- What comes of a message that is handed to a stream: the answer is `ok` exactly if the message is
recorded as accepted, and then it is the last in the queue; otherwise nothing happens. -/
structure Step.Hands (w : World) (s : Nat) (m : Message) (r : Step) : Prop where
  told : r.thread.control = .reply .ok ↔ acceptedOn s r.seen = [m]
  taken : r.thread.control = .reply .ok → (w.after r.deed).queueAt s = w.queueAt s ++ [m]
  refused : r.thread.control ≠ .reply .ok → r.deed = .nothing ∧ ∀ i, acceptedOn i r.seen = []
  others : ∀ i, i ≠ s → acceptedOn i r.seen = []

theorem Thread.submit_hands {w : World} {s : Nat} (known : s < w.streams.length) (t : Thread)
    (outer : List Frame) (m : Message) : (t.submit w outer (w.enqueue s m)).Hands w s m := by
  unfold World.enqueue
  split
  · have recorded (i : Nat) : acceptedOn i (t.submit w outer (.accepted s m)).seen =
        if s = i then [m] else [] := by
      by_cases same : s = i <;>
        simp [submit, acceptedOn, Thread.notice, Occurrence.acceptedOn?, same]
    have pushed := World.queueAt_push known m s
    rw [if_pos rfl] at pushed
    refine ⟨?_, fun _ => pushed, fun other => (other rfl).elim, fun i other => ?_⟩
    · rw [recorded, if_pos rfl]
      exact iff_of_true rfl rfl
    · rw [recorded, if_neg (Ne.symm other)]
  · refine ⟨iff_of_false ?_ (by simp [submit, acceptedOn]), fun answered => ?_,
      fun _ => ⟨rfl, fun _ => rfl⟩, fun _ _ => rfl⟩
    · intro answered
      cases answered
    · cases answered

theorem Turn.ledger {w : World} {t : Thread} {r : Step} (h : Turn w t r) (s : Nat) :
    startedOn s r.seen ++ (w.after r.deed).queueAt s = w.queueAt s ++ acceptedOn s r.seen := by
  cases h with
  | calm frame outer added frames calm deed stack above spans spawned seen =>
    rw [startedOn_calm seen, acceptedOn_calm seen, World.queueAt_after deed]
    simp
  | push frame outer i m reply n frames calm known routed =>
    rw [World.queueAt_push known]
    by_cases h : i = s <;> simp [startedOn, acceptedOn, Thread.notice, Occurrence.startedOn?,
      Occurrence.acceptedOn?, h]
  | start i e p outer m queue frames run point first =>
    rw [World.queueAt_pop]
    by_cases h : i = s
    · subst h
      simp [startedOn, acceptedOn, Occurrence.startedOn?, Occurrence.acceptedOn?, first]
    · simp [startedOn, acceptedOn, Occurrence.startedOn?, Occurrence.acceptedOn?, h]
  | proceed | finish =>
    rename_i calm
    rw [startedOn_calm calm, acceptedOn_calm calm]
    simp
  | drain | enlist | dismiss | dry | again | seize | yield => simp [startedOn, acceptedOn]
  | busy | rest | abandon | complete =>
    simp [startedOn, acceptedOn, Occurrence.startedOn?, Occurrence.acceptedOn?]

namespace Machine

theorem Moves.ledger {m m' : Machine} {new : List Occurrence} (h : m.Moves new m') (s : Nat) :
    startedOn s new ++ m'.world.queueAt s = m.world.queueAt s ++ acceptedOn s new := by
  cases h with
  | step i h =>
    obtain ⟨t, r, -, turn, rfl, rfl⟩ := turn_of_stepAt? h
    exact turn.ledger s
  | expire i h =>
    obtain ⟨t, r, -, turn, rfl, rfl⟩ := turn_of_expireAt? h
    exact turn.ledger s
  | call | revise => simp [startedOn, acceptedOn]
  | offer i message known =>
    rw [World.queueAt_push known]
    by_cases h : i = s <;> simp [startedOn, acceptedOn, Occurrence.startedOn?,
      Occurrence.acceptedOn?, h]

/-- Over a run, what was held and what has been accepted is what has been started and what is held. -/
theorem Reaches.ledger {m₀ m : Machine} {seen : List Occurrence} (run : m₀.Reaches seen m) (s : Nat) :
    startedOn s seen ++ m.world.queueAt s = m₀.world.queueAt s ++ acceptedOn s seen := by
  induction run with
  | refl => simp [startedOn, acceptedOn]
  | @move m m' seen new run last ih =>
    calc startedOn s (seen ++ new) ++ m'.world.queueAt s
        = startedOn s seen ++ (startedOn s new ++ m'.world.queueAt s) := by simp
      _ = (startedOn s seen ++ m.world.queueAt s) ++ acceptedOn s new := by
        rw [last.ledger, List.append_assoc]
      _ = m₀.world.queueAt s ++ acceptedOn s (seen ++ new) := by simp [ih]

end Machine

theorem World.queueAt_create {config : MachineConfig} {registry : Registry} {w : World}
    (created : World.create config registry = .ok w) (s : Nat) : w.queueAt s = [] := by
  simp only [World.create] at created
  split at created <;> cases created
  simp only [World.queueAt, List.getElem?_map]
  cases config.streams[s]? <;> rfl

/-- From the creation of a machine on, what a stream has accepted is what it has started followed by
what it holds. -/
theorem Machine.Reaches.accepted_eq {config : MachineConfig} {registry : Registry} {w : World}
    (created : World.create config registry = .ok w) {m : Machine} {seen : List Occurrence}
    (run : Machine.Reaches ⟨w, []⟩ seen m) {s : Nat} {stream : Stream}
    (found : m.world.streams[s]? = some stream) :
    acceptedOn s seen = startedOn s seen ++ stream.queue := by
  have held : m.world.queueAt s = stream.queue := by rw [World.queueAt, found]; rfl
  have ledger := run.ledger s
  rw [World.queueAt_create created, held] at ledger
  simpa using ledger.symm

/-- No message that a stream accepts is lost, doubled or overtaken, and those that it accepts are
those that it answers with `ok`. -/
theorem accepted_eq_started_append_pending {config : MachineConfig} {registry : Registry}
    {w : World} (created : World.create config registry = .ok w) {m : Machine}
    {seen : List Occurrence} (run : Machine.Reaches ⟨w, []⟩ seen m) {s : Nat} {stream : Stream}
    (found : m.world.streams[s]? = some stream) :
    acceptedOn s seen = startedOn s seen ++ stream.queue ∧
      ∀ (t : Thread) (outer : List Frame) (message : Message),
        (t.submit m.world outer (m.world.enqueue s message)).Hands m.world s message :=
  ⟨run.accepted_eq created found, Thread.submit_hands (List.getElem?_eq_some_iff.1 found).1⟩

/-- A host stream and a processor, idle. -/
def idlePair : World := ⟨.empty, [{ category := .host, device := 0 }, { category := .cpu, device := 0 }],
  {}, {}, []⟩

/-- The pair with three messages: the first schedules in the middle and then panics. -/
def offeredTriple : Machine :=
  let first := Message.probe .host [.issue .schedule] [.panic "boom"]
  ⟨((idlePair.after (.push 0 first)).after (.push 1 (.probe .cpu [] []))).after
    (.push 0 (.probe .host [] [])), [.ofCommand .schedule]⟩

theorem reaches_offeredTriple : ∃ seen, Machine.Reaches ⟨idlePair, []⟩ seen offeredTriple :=
  ⟨_, (((Machine.Reaches.refl.move (.offer 0 _ (by decide) rfl)).move
    (.offer 1 _ (by decide) rfl)).move (.offer 0 _ (by decide) rfl)).move (.call .schedule)⟩

/-- The schedule has unwound; the last message is still there. -/
theorem accepted_eq_of_unwound : ∃ seen stream,
    World.create {} .empty = .ok idlePair ∧
    Machine.Reaches ⟨idlePair, []⟩ seen (offeredTriple.run 60).1 ∧
    (offeredTriple.run 60).1.world.streams[0]? = some stream ∧ stream.queue.length = 1 ∧
    acceptedOn 0 seen = startedOn 0 seen ++ stream.queue := by
  obtain ⟨seen, offered⟩ := reaches_offeredTriple
  have created : World.create {} .empty = .ok idlePair := rfl
  exact ⟨_, _, created, offered.goOn 60, rfl, rfl,
    (accepted_eq_started_append_pending created (offered.goOn 60) rfl).1⟩

end StreamMachine
