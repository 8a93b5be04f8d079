import StreamMachine.Proofs.Flights
import StreamMachine.Proofs.Idle
import StreamMachine.Proofs.Notices
import StreamMachine.Proofs.Share
import StreamMachine.Session.Answer

/-! The spans of what a machine reports while one thread works on it. Whatever is nested in
whatever, and however it ends, an event names the instructions in flight, the outermost first. Of the
messages that are handed in, those that are accepted are told. -/
namespace StreamMachine

/-! ### Runs of one thread -/

/-- The word is with host code: between two calls, in a phase or in a callback. -/
def Thread.OnHost (t : Thread) : Prop :=
  match t.frames with
  | [] => True
  | .phase .. :: _ | .callback .. :: _ => t.control = .run
  | _ => False

/-- What comes of a message that is handed to a stream or to the machine. -/
inductive World.Offers (w : World) : World.Submission → Prop
  | enqueue (s : Nat) (m : Message) (known : s < w.streams.length) : Offers w (w.enqueue s m)
  | receive (m : Message) : Offers w (w.receiveMessage m)

/-- Runs on one thread, from the creation of the machine on, with all that they show of themselves.
One call is made after the other; host code may decide on the way what it does next, and may hand in
any message whenever it has the word. The thread keeps its spans from one call to the next. -/
inductive OneThread (w₀ : World) : List Occurrence → World → Thread → Prop
  | start : OneThread w₀ [.traced ⟨w₀.createdNotice, []⟩] w₀ { frames := [] }
  | call {seen : List Occurrence} {w : World} {t : Thread} (run : OneThread w₀ seen w t)
      (ended : t.frames = []) (c : Command) :
      OneThread w₀ seen w { t with frames := [.command c], control := .run }
  | go {seen : List Occurrence} {w : World} {t : Thread} {r : Step} (run : OneThread w₀ seen w t)
      (goes : t.Goes ⟨w, [t]⟩ r) (alone : r.spawned = []) (single : r.thread.Single) :
      OneThread w₀ (seen ++ r.seen) (w.after r.deed) r.thread
  | offer {seen : List Occurrence} {w : World} {t : Thread} {outcome : World.Submission}
      (run : OneThread w₀ seen w t) (host : t.OnHost) (offers : w.Offers outcome) :
      OneThread w₀ (seen ++ (t.submit w t.frames outcome).seen) (w.after outcome.deed)
        (t.submit w t.frames outcome).thread
  | revise {seen : List Occurrence} {w : World} {t t' : Thread} (run : OneThread w₀ seen w t)
      (revised : t.Revised t') : OneThread w₀ seen w t'

/-- The notice of a message enqueued on a stream of the given category, if it is one. -/
def Occurrence.enqueuedFor? (category : StreamCategory) : Occurrence → Option Notice
  | .traced ⟨.enqueued name stream device, _⟩ =>
    if stream = category then some (.enqueued name stream device) else none
  | _ => none

/-- The notices of messages enqueued on the stream of a category, in order. -/
def enqueuedFor (category : StreamCategory) (seen : List Occurrence) : List Notice :=
  seen.filterMap (·.enqueuedFor? category)

/-- What a chronicle tells of the instructions in flight and of the messages accepted. -/
structure Told (w₀ : World) (seen : List Occurrence) : Prop where
  /-- An event names the instructions in flight at its moment, the outermost first, each with the
  category of its stream. -/
  events : ∀ k event, seen[k]? = some (.traced event) →
    event.spans = (flights (seen.take k)).map fun f => spanOf w₀.categoryAt f.pair
  /-- What ends is the innermost instruction. -/
  ends : ∀ k o s, seen[k]? = some o → o.ends? = some s → ∃ f,
    flights (seen.take k) = flights (seen.take (k + 1)) ++ [f] ∧ f.stream = s
  /-- For each message that a stream has accepted, and for no other, there is a notice, in the same
  order. -/
  enqueued : ∀ s < w₀.streams.length, enqueuedFor (w₀.categoryAt s) seen =
    (acceptedOn s seen).map fun m => .enqueued m.name (w₀.categoryAt s) (w₀.deviceAt s)

section Told

variable {w₀ w : World} {t : Thread} {r : Step} {seen new : List Occurrence}

theorem World.categoryAt_inj (w : World) (distinct : (w.profiles.map (·.1)).Nodup) {i j : Nat}
    (hi : i < w.streams.length) (hj : j < w.streams.length)
    (same : w.categoryAt i = w.categoryAt j) : i = j := by
  have listed (k : Nat) (known : k < w.streams.length) :
      (w.profiles.map (·.1))[k]? = some (w.categoryAt k) := by
    rw [List.getElem?_map, profiles, List.getElem?_map, categoryAt, List.getElem?_eq_getElem known]
    rfl
  have inside : i < (w.profiles.map (·.1)).length := by simpa [profiles] using hi
  exact (List.getElem?_inj inside distinct).1 (by rw [listed i hi, listed j hj, same])

/-- The first thing that a step reports is its notice, if it gives one. -/
theorem Thread.Says.traced (said : t.Says w new) {k : Nat} {event : Event}
    (here : new[k]? = some (.traced event)) : k = 0 ∧ event.spans = t.spans.reverse := by
  cases said with
  | nothing mute => exact (mute _ (List.mem_of_getElem? here)).elim
  | notice n =>
    cases k with
    | zero =>
      cases here
      exact ⟨rfl, rfl⟩
    | succ k => cases here
  | enqueued s m =>
    match k, here with
    | 0, here =>
      cases here
      exact ⟨rfl, rfl⟩
    | 1, here => cases here
    | k + 2, here => cases here

@[simp] theorem enqueuedFor_append (category : StreamCategory) (xs ys : List Occurrence) :
    enqueuedFor category (xs ++ ys) = enqueuedFor category xs ++ enqueuedFor category ys :=
  List.filterMap_append

theorem filterMap_mute {α : Type} {read : Occurrence → Option α}
    (off : ∀ o : Occurrence, o.Mute → read o = none) (mute : ∀ o ∈ new, o.Mute) :
    new.filterMap read = [] :=
  List.filterMap_eq_nil_iff.2 fun o mem => off o (mute o mem)

/-- A step tells of an enqueued message just if it has one accepted. -/
theorem Thread.Says.enqueued_eq (said : t.Says w new)
    (distinct : (w.profiles.map (·.1)).Nodup) {s : Nat} (known : s < w.streams.length) :
    enqueuedFor (w.categoryAt s) new =
      (acceptedOn s new).map fun m => .enqueued m.name (w.categoryAt s) (w.deviceAt s) := by
  cases said with
  | nothing mute =>
    have untold : enqueuedFor (w.categoryAt s) new = [] :=
      filterMap_mute (fun o mute => by cases o <;> first | rfl | exact mute.elim) mute
    have none : acceptedOn s new = [] :=
      filterMap_mute (fun o mute => by cases o <;> first | rfl | exact mute.elim) mute
    rw [untold, none, List.map_nil]
  | notice n other =>
    cases n with
    | enqueued => exact (other trivial).elim
    | _ => rfl
  | enqueued i m known' =>
    by_cases same : i = s
    · subst same
      simp [enqueuedFor, acceptedOn, Occurrence.enqueuedFor?, Occurrence.acceptedOn?, Thread.notice]
    · have apart : w.categoryAt i ≠ w.categoryAt s :=
        mt (w.categoryAt_inj distinct known' known) same
      simp [enqueuedFor, acceptedOn, Occurrence.enqueuedFor?, Occurrence.acceptedOn?, Thread.notice,
        same, apart]

/-- What stands at a place of the longer chronicle stands in its first part or in its second. -/
theorem getElem?_append_eq_some {k : Nat} {o : Occurrence} (here : (seen ++ new)[k]? = some o) :
    k < seen.length ∧ seen[k]? = some o ∨ ∃ j, k = seen.length + j ∧ new[j]? = some o := by
  rw [List.getElem?_append] at here
  split at here
  next inside => exact .inl ⟨inside, here⟩
  · exact .inr ⟨k - seen.length, by omega, here⟩

theorem Told.append (h : Told w₀ seen)
    (events : ∀ k event, new[k]? = some (.traced event) →
      event.spans = (flights (seen ++ new.take k)).map fun f => spanOf w₀.categoryAt f.pair)
    (ends : ∀ k o s, new[k]? = some o → o.ends? = some s → ∃ f,
      flights (seen ++ new.take k) = flights (seen ++ new.take (k + 1)) ++ [f] ∧ f.stream = s)
    (enqueued : ∀ s < w₀.streams.length, enqueuedFor (w₀.categoryAt s) new =
      (acceptedOn s new).map fun m => .enqueued m.name (w₀.categoryAt s) (w₀.deviceAt s)) :
    Told w₀ (seen ++ new) where
  events k event here := by
    obtain ⟨inside, old⟩ | ⟨j, rfl, added⟩ := getElem?_append_eq_some here
    · rw [List.take_append_of_le_length (by omega)]
      exact h.events k event old
    · rw [List.take_length_add_append]
      exact events j event added
  ends k o s here ending := by
    obtain ⟨inside, old⟩ | ⟨j, rfl, added⟩ := getElem?_append_eq_some here
    · rw [List.take_append_of_le_length (by omega), List.take_append_of_le_length (by omega)]
      exact h.ends k o s old ending
    · rw [Nat.add_assoc, List.take_length_add_append, List.take_length_add_append]
      exact ends j o s added ending
  enqueued s known := by
    rw [enqueuedFor_append, acceptedOn_append, List.map_append, h.enqueued s known,
      enqueued s known]

end Told

/-- A run on one thread with its chronicle: the thread has entered the spans of the flights. -/
structure Tracks (w₀ : World) (seen : List Occurrence) (w : World) (t : Thread) : Prop where
  profiles : w.profiles = w₀.profiles
  guarded : Machine.Guarded seen ⟨w, [t]⟩
  single : t.Single
  aloft : t.Aloft w₀.categoryAt ((flights seen).map Flight.pair).reverse
  told : Told w₀ seen
  queued : ∀ s, acceptedOn s seen = startedOn s seen ++ w.queueAt s

namespace Tracks

variable {w₀ w : World} {t t' : Thread} {r : Step} {seen : List Occurrence}

theorem categoryAt_eq (h : Tracks w₀ seen w t) : w.categoryAt = w₀.categoryAt := by
  funext s
  rw [World.categoryAt_eq, h.profiles, ← World.categoryAt_eq]

theorem deviceAt_eq (h : Tracks w₀ seen w t) : w.deviceAt = w₀.deviceAt := by
  funext s
  rw [World.deviceAt_eq, h.profiles, ← World.deviceAt_eq]

theorem length_streams (h : Tracks w₀ seen w t) : w.streams.length = w₀.streams.length := by
  have same := congrArg List.length h.profiles
  simpa [World.profiles] using same

theorem shaped (h : Tracks w₀ seen w t) : t.Shaped w.categoryAt :=
  h.guarded.shaped t (List.mem_singleton_self t)

/-- The spans of the thread are those of the flights, outermost first. -/
theorem spans_eq (h : Tracks w₀ seen w t) :
    t.spans.reverse = (flights seen).map fun f => spanOf w₀.categoryAt f.pair := by
  rw [h.aloft.spans_eq (h.categoryAt_eq ▸ h.shaped) h.single, List.map_reverse,
    List.reverse_reverse, List.map_map]
  rfl

theorem step (h : Tracks w₀ seen w t) (distinct : (w₀.profiles.map (·.1)).Nodup) (turn : Turn w t r)
    (said : t.Says w r.seen) (alone : r.spawned = []) (single : r.thread.Single) :
    Tracks w₀ (seen ++ r.seen) (w.after r.deed) r.thread := by
  have carried := turn.carries h.shaped (h.categoryAt_eq ▸ h.aloft) h.single single
    fun s e outer frames => h.guarded.only frames
  rw [h.categoryAt_eq] at carried
  refine ⟨(w.profiles_after r.deed).trans h.profiles, ?_, single, carried.aloft,
    h.told.append ?_ (fun k o s => carried.ends) ?_, fun s => ?_⟩
  · have guarded := h.guarded.stepped (i := 0) rfl turn
    simpa [Machine.stepped, alone] using guarded
  · intro k event here
    obtain ⟨rfl, spans⟩ := said.traced here
    rw [spans, h.spans_eq, List.take_zero, List.append_nil]
  · intro s known
    have told := said.enqueued_eq (h.profiles ▸ distinct) (h.length_streams ▸ known)
    rwa [h.categoryAt_eq, h.deviceAt_eq] at told
  · rw [acceptedOn_append, h.queued s, List.append_assoc, ← turn.ledger s, startedOn_append,
      List.append_assoc]

/-- Host code on top of the stack comes and goes without a trace. -/
theorem retop (h : Tracks w₀ seen w t) (old new outer : List Frame)
    (frames : t.frames = old ++ outer) (frames' : t'.frames = new ++ outer)
    (spans : t'.spans = t.spans) (calm : ∀ f ∈ old, f.Calm) (calm' : ∀ f ∈ new, f.Calm)
    (stack : Grounded w.categoryAt outer t.spans) : Tracks w₀ seen w t' := by
  have before : Grounded w.categoryAt t.frames t.spans := frames ▸ stack.append calm
  have after : Grounded w.categoryAt t'.frames t'.spans := by
    rw [frames', spans]
    exact stack.append calm'
  have same (p : Frame → Bool) (off : ∀ f : Frame, f.Calm → p f = false) :
      countFrames p [t'] = countFrames p [t] := by
    have none {top : List Frame} (calm : ∀ f ∈ top, f.Calm) : top.countP p = 0 :=
      List.countP_eq_zero.2 fun f mem => by simp [off f (calm f mem)]
    rw [countFrames_cons, countFrames_cons, frames, frames', List.countP_append, List.countP_append,
      none calm, none calm']
  refine ⟨h.profiles, ?_, ?_, ?_, h.told, h.queued⟩
  · have guarded : Machine.Guarded (seen ++ []) ⟨w, [t']⟩ := by
      refine h.guarded.of_same ?_ (fun _ => rfl) (fun s => same _ fun f calm => calm.holds s)
        (fun s => same _ fun f calm => calm.executes s) fun _ => rfl
      intro x mem
      rw [List.mem_singleton.1 mem]
      exact .host after
    rwa [List.append_nil] at guarded
  · intro saved mem
    rw [frames'] at mem
    obtain mem | mem := List.mem_append.1 mem
    · exact calm' _ mem
    · exact h.single saved (frames ▸ List.mem_append_right old mem)
  · rw [h.aloft.eq_aboard before.not_landing, frames, aboard_calm_append calm,
      ← aboard_calm_append calm' outer, ← frames']
    exact .cruising after.not_landing

theorem start (free : ∀ s, w₀.executingAt s = false) (empty : ∀ s, w₀.queueAt s = []) :
    Tracks w₀ [.traced ⟨w₀.createdNotice, []⟩] w₀ { frames := [] } where
  profiles := rfl
  guarded := by
    show Machine.Guarded ([] ++ [.traced ⟨w₀.createdNotice, []⟩]) ⟨w₀, [{ frames := [] }]⟩
    refine (Machine.Guarded.init w₀ free).of_same ?_ (fun _ => rfl) (fun _ => rfl) (fun _ => rfl)
      fun _ => rfl
    intro t mem
    rw [List.mem_singleton.1 mem]
    exact .host .nil
  single := by simp [Thread.Single]
  aloft := .cruising (by simp [Thread.Landing])
  told := by
    refine ⟨?_, ?_, fun _ _ => rfl⟩
    · intro k event here
      cases k with
      | zero =>
        cases here
        rfl
      | succ k => cases here
    · intro k o s here ending
      cases k with
      | zero =>
        cases here
        cases ending
      | succ k => cases here
  queued s := by
    rw [empty]
    rfl

/-- Below host code, and between two calls, each instruction is in the middle of a phase. -/
theorem grounded (h : Tracks w₀ seen w t) (host : t.OnHost) :
    Grounded w.categoryAt t.frames t.spans := by
  cases h.shaped with
  | host stack => exact stack
  | loop s e p outer frames | ending s e span outer spans frames =>
    unfold Thread.OnHost at host
    rw [frames] at host
    exact host.elim

end Tracks

/-- A message that host code hands in comes to what a command would come to that hands it in. -/
theorem Turn.of_offer {w : World} {outcome : World.Submission} {t : Thread} {frame : Frame}
    {outer : List Frame} (offers : w.Offers outcome) (frames : t.frames = frame :: outer)
    (calm : frame.Calm) : Turn w t (t.submit w outer outcome) ∧
      t.Says w (t.submit w outer outcome).seen := by
  cases offers with
  | enqueue s m known => exact ⟨.of_enqueue frames calm known m, .of_enqueue known m outer⟩
  | receive m => exact ⟨.of_receive frames calm m, .of_receive m outer⟩

theorem OneThread.tracks {config : MachineConfig} {registry : Registry} {w₀ : World}
    (created : World.create config registry = .ok w₀) {seen : List Occurrence} {w : World}
    {t : Thread} (run : OneThread w₀ seen w t) : Tracks w₀ seen w t := by
  have distinct := World.distinct_create created
  induction run with
  | start => exact .start (World.executingAt_create created) (World.queueAt_create created)
  | @call seen w t run ended c ih =>
    refine ih.retop [] [.command c] [] ended rfl rfl (by simp) (by simp [Frame.Calm]) ?_
    have stack := ih.grounded (by simp [Thread.OnHost, ended])
    rwa [ended] at stack
  | go run goes alone single ih =>
    exact ih.step distinct goes.turn_stride.1 (.of_goes goes) alone single
  | @offer seen w t outcome run host offers ih =>
    -- As if the host code had called for a command that hands the message in.
    let t' : Thread := { t with frames := .command .schedule :: t.frames, control := .run }
    have called : Tracks w₀ seen w t' :=
      ih.retop [] [.command .schedule] t.frames rfl rfl rfl (by simp) (by simp [Frame.Calm])
        (ih.grounded host)
    obtain ⟨turn, said⟩ := Turn.of_offer (t := t') offers rfl trivial
    exact called.step distinct turn said rfl ih.single
  | revise run revised ih =>
    obtain ⟨f, g, outer, calm, calm', frames, frames', spans⟩ := revised.calm
    exact ih.retop [f] [g] outer frames frames' spans (by simpa using calm) (by simpa using calm')
      (ih.shaped.below frames calm)

/-- What holds of the spans of a machine that one thread works on. -/
structure Spanned (w₀ : World) (seen : List Occurrence) (w : World) (t : Thread) : Prop
    extends Told w₀ seen where
  /-- An instruction that has ended is in flight at no later moment. -/
  gone : ∀ k o f, seen[k]? = some o → o.ends? = some f.stream → f ∈ flights (seen.take k) →
    ∀ j, k < j → f ∉ flights (seen.take j)
  /-- The instructions in flight are those on the stack, unless one has just come to its end, and
  the thread has entered their spans. -/
  stack : ¬t.Landing → (flights seen).map Flight.pair = (aboard t.frames).reverse
  entered : t.spans.reverse = (flights seen).map fun f => spanOf w₀.categoryAt f.pair
  /-- Outside of any instruction, as between two calls, there are none. -/
  outside : ¬t.Landing → aboard t.frames = [] → flights seen = [] ∧ t.spans = []
  /-- What has been accepted and not started is in the queue. -/
  queued : ∀ s, acceptedOn s seen = startedOn s seen ++ w.queueAt s

/-- The spans of a thread mirror its stack, whatever has been nested, caught or unwound on it. -/
theorem spanned_of_oneThread {config : MachineConfig} {registry : Registry} {w₀ : World}
    (created : World.create config registry = .ok w₀) {seen : List Occurrence} {w : World}
    {t : Thread} (run : OneThread w₀ seen w t) : Spanned w₀ seen w t := by
  have h := run.tracks created
  have stack (air : ¬t.Landing) : (flights seen).map Flight.pair = (aboard t.frames).reverse := by
    rw [← h.aloft.eq_aboard air, List.reverse_reverse]
  refine ⟨h.told, ?_, stack, h.spans_eq, ?_, h.queued⟩
  · intro k o f here ends under j later
    exact notMem_flights_of_ends here ends under later
  · intro air outside
    have none : flights seen = [] := by
      have pairs := stack air
      rw [outside] at pairs
      exact List.map_eq_nil_iff.1 pairs
    have entered := h.spans_eq
    rw [none] at entered
    exact ⟨none, List.reverse_eq_nil_iff.1 entered⟩

/-! ### A run -/

/-- No frame of the thread is a helper's, as a test. -/
def Thread.isSingle (t : Thread) : Bool :=
  t.frames.all fun
    | .helper _ => false
    | _ => true

/-- Steps of a thread as long as it is on its own, at most as many as the budget. -/
def World.sole : Nat → World → Thread → List Occurrence × World × Thread
  | 0, w, t => ([], w, t)
  | budget + 1, w, t =>
    match t.step? w 1 (Machine.mk w [t]).outcome? with
    | none => ([], w, t)
    | some r =>
      if r.spawned.isEmpty && r.thread.isSingle then
        let (seen, last) := World.sole budget (w.after r.deed) r.thread
        (r.seen ++ seen, last)
      else ([], w, t)

theorem OneThread.sole {w₀ w : World} {t : Thread} {seen : List Occurrence}
    (run : OneThread w₀ seen w t) (budget : Nat) :
    OneThread w₀ (seen ++ (w.sole budget t).1) (w.sole budget t).2.1 (w.sole budget t).2.2 := by
  induction budget generalizing w t seen with
  | zero => simpa [World.sole] using run
  | succ budget ih =>
    unfold World.sole
    split
    · simpa using run
    next r taken =>
      split
      next own =>
        rw [Bool.and_eq_true, List.isEmpty_iff] at own
        have single : r.thread.Single := by
          intro saved mem
          have := List.all_eq_true.1 own.2 _ mem
          cases this
        dsimp only
        rw [← List.append_assoc]
        exact ih (run.go (.step taken) own.1 single)
      · simpa using run

/-- A thread with its next call. -/
def Thread.calling (t : Thread) (c : Command) : Thread :=
  { t with frames := [.command c], control := .run }

/-- A callback that catches one panic and falls by the next. -/
def falling : Message :=
  .lending .cpu ⟨"a", 0⟩ [.attempt (.step (.query (.lookup "x"))), .panic "boom"]

/-- In the middle of its instruction the other stream is drained. -/
def nesting : Message := .probe .host [] [.issue (.runPending .cpu)]

/-- A blob is made. -/
def blobPair : List Occurrence × World × Thread :=
  idlePair.sole 5 (Thread.calling { frames := [] } (.store (.newBlob "a" (.words ⟨[1]⟩ [1]))))

/-- The messages are handed in, one of them to the wrong stream first, and scheduled. -/
def fallenPair : List Occurrence × World × Thread :=
  ((blobPair.2.1.after (.push 1 falling)).after (.push 0 nesting)).sole 60
    (blobPair.2.2.calling .schedule)

/-- After the panic there is another call. -/
def askedPair : List Occurrence × World × Thread :=
  fallenPair.2.1.sole 5 (fallenPair.2.2.calling (.query (.lookup "x")))

theorem spanned_of_fallenPair : ∃ seen, World.create {} .empty = .ok idlePair ∧
    OneThread idlePair seen askedPair.2.1 askedPair.2.2 ∧
    Spanned idlePair seen askedPair.2.1 askedPair.2.2 ∧
    seen.filterMap Occurrence.event? =
      [⟨.machineCreated 2 0, []⟩,
       ⟨.enqueued "lending" .cpu 0, []⟩,
       ⟨.enqueued "probe" .host 0, []⟩,
       ⟨.lending .write .cpu "a", [⟨"probe", .host⟩, ⟨"lending", .cpu⟩]⟩,
       ⟨.violated (.registry (.notFound "x")), [⟨"probe", .host⟩, ⟨"lending", .cpu⟩]⟩,
       ⟨.violated (.registry (.notFound "x")), []⟩] := by
  have created : World.create {} .empty = .ok idlePair := rfl
  have begun : OneThread idlePair _ idlePair (Thread.calling { frames := [] } _) :=
    OneThread.start.call rfl (.store (.newBlob "a" (.words ⟨[1]⟩ [1])))
  have made : OneThread idlePair _ blobPair.2.1 blobPair.2.2 := begun.sole 5
  have wrong : blobPair.2.1.Offers (.rejected (.streamMismatch "probe" .host .cpu)) :=
    World.Offers.enqueue 1 nesting (by decide +kernel)
  have refused : OneThread idlePair _ blobPair.2.1 (blobPair.2.2.give [] _) :=
    made.offer trivial wrong
  have right : blobPair.2.1.Offers (.accepted 1 falling) :=
    World.Offers.enqueue 1 falling (by decide +kernel)
  have first : OneThread idlePair _ (blobPair.2.1.after (.push 1 falling))
      (blobPair.2.2.give [] .ok) :=
    refused.offer trivial right
  have right' : (blobPair.2.1.after (.push 1 falling)).Offers (.accepted 0 nesting) :=
    World.Offers.enqueue 0 nesting (by decide +kernel)
  have second : OneThread idlePair _
      ((blobPair.2.1.after (.push 1 falling)).after (.push 0 nesting)) (blobPair.2.2.give [] .ok) :=
    first.offer trivial right'
  have fallen : OneThread idlePair _ fallenPair.2.1 fallenPair.2.2 :=
    (second.call rfl .schedule).sole 60
  have asked : OneThread idlePair _ askedPair.2.1 askedPair.2.2 :=
    (fallen.call rfl (.query (.lookup "x"))).sole 5
  exact ⟨_, created, asked, spanned_of_oneThread created asked, by decide +kernel⟩

end StreamMachine
