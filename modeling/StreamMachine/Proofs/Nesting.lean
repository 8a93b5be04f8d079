import StreamMachine.Proofs.Ledger

/-! What stands on what. A drain runs an instruction, an instruction one of its phases, a phase may
lend a blob to a callback, and only drains reply to a schedule. So a reply or a panic that reaches
one of them comes from the frame it has been waiting for. -/
namespace StreamMachine

/-- The phases that an instruction has yet to go through. -/
def Status.due : Status → List Phase
  | .created => [.infer, .compute]
  | .inferred => [.compute]
  | .computed => []

/-- Frames that go on with whatever they are handed: host code, and what stands around it. -/
def Frame.Open : Frame → Prop
  | .phase .. | .callback .. | .log .. | .logDrain _ | .catching | .helper _ => True
  | _ => False

def Frame.Schedules : Frame → Prop
  | .schedule .. => True
  | _ => False

/-- The blob that an action on top of these frames works on. -/
def lent? : List Frame → Option Accessor
  | .callback a _ :: _ => some a
  | .log .. :: below | .catching :: below => lent? below
  | _ => none

/-- An instruction on a stream of the category that was captured for it. -/
structure World.Routes (w : World) (i : Instruction) : Prop where
  known : i.stream < w.streams.length
  category : i.message.descriptor.category = w.categoryAt i.stream

/-- A blob lent on the stream of an instruction. -/
def Accessor.LentOn (w : World) (a : Accessor) (i : Instruction) : Prop :=
  a.category = w.categoryAt i.stream ∧ a.device = w.deviceAt i.stream

/-- What the frames below have to be for a frame to stand on them. -/
def Frame.Fits (w : World) (below : List Frame) : Frame → Prop
  | .run i phases => phases = i.status.due ∧ w.Routes i ∧
    ∃ e outer, below = .drain i.stream .execute e :: outer
  | .phase i p _ => ∃ phases outer, below = .run i (p :: phases) :: outer
  | .borrow a _ | .callback a _ => ∃ i p moves outer, below = .phase i p moves :: outer ∧ a.LentOn w i
  | .action a _ => lent? below = some a ∧ ∀ f ∈ below.head?, f.Open
  | .drain s .. => s < w.streams.length ∧ ∀ f ∈ below.head?, f.Open ∨ f.Schedules
  | .schedule left _ => (∀ s ∈ left, s < w.streams.length) ∧ ∀ f ∈ below.head?, f.Open
  | _ => ∀ f ∈ below.head?, f.Open

def Nested (w : World) : List Frame → Prop
  | [] => True
  | f :: below => f.Fits w below ∧ Nested w below

/-- Frames that are no part of a drain, of a schedule or of an instruction. -/
def Frame.Plain : Frame → Prop
  | .drain .. | .schedule .. | .run .. | .phase .. => False
  | _ => True

/-- Frames that have nothing to show yet. -/
def Frame.Fresh : Frame → Prop
  | .run .. | .phase .. => False
  | .drain _ p e => p = .enter ∧ e = 0
  | .schedule _ total => total = 0
  | _ => True

/-- Occurrences that are no part of the life of an instruction. -/
def Occurrence.Silent : Occurrence → Prop
  | .logged .. | .traced _ | .accepted .. => True
  | _ => False

variable {w : World} {outer : List Frame}

theorem World.deviceAt_after (w : World) (d : Deed) (s : Nat) :
    (w.after d).deviceAt s = w.deviceAt s := by
  rw [deviceAt_eq, profiles_after, ← deviceAt_eq]

theorem Frame.fits_after (w : World) (d : Deed) (below : List Frame) (f : Frame) :
    f.Fits (w.after d) below ↔ f.Fits w below := by
  have routes (i : Instruction) : (w.after d).Routes i ↔ w.Routes i := by
    constructor
    · rintro ⟨known, category⟩
      exact ⟨w.length_streams_after d ▸ known, w.categoryAt_after d _ ▸ category⟩
    · rintro ⟨known, category⟩
      exact ⟨(w.length_streams_after d).symm ▸ known, (w.categoryAt_after d _).symm ▸ category⟩
  cases f <;> simp only [Fits, Accessor.LentOn, routes, World.length_streams_after,
    World.categoryAt_after, World.deviceAt_after]

theorem nested_after (w : World) (d : Deed) (frames : List Frame) :
    Nested (w.after d) frames ↔ Nested w frames := by
  induction frames with
  | nil => rfl
  | cons f below ih => rw [Nested, Nested, Frame.fits_after, ih]

namespace Nested

variable {f : Frame}

theorem of_append {inner : List Frame} (h : Nested w (inner ++ f :: outer)) :
    f.Fits w outer ∧ Nested w outer := by
  induction inner with
  | nil => exact h
  | cons g inner ih => exact ih h.2

/-- Below a plain frame there is host code, if anything. -/
theorem open_below (h : Nested w (f :: outer)) (plain : f.Plain) : ∀ g ∈ outer.head?, g.Open := by
  cases f with
  | drain | schedule | run | phase => exact plain.elim
  | borrow | callback =>
    obtain ⟨⟨i, p, moves, rest, rfl, -⟩, -⟩ := h
    simp [Frame.Open]
  | action => exact h.1.2
  | _ => exact h.1

end Nested

/-- A step of a thread, by what it means for drains, schedules and instructions. -/
inductive Stride (w : World) (t : Thread) : Step → Prop
  /-- Away from them, or on the way to a new drain or schedule. -/
  | plain {r : Step} (frame : Frame) (outer added : List Frame) (frames : t.frames = frame :: outer)
      (plain : frame.Plain) (stack : r.thread.frames = added ++ outer)
      (fresh : ∀ f ∈ added, f.Fresh) (run : added ≠ [] → r.thread.control = .run)
      (sits : Nested w (frame :: outer) → Nested w (added ++ outer))
      (spawned : ∀ x ∈ r.spawned, ∃ s < w.streams.length, x = .worker s)
      (silent : ∀ o ∈ r.seen, o.Silent) : Stride w t r
  /-- A phase goes on. -/
  | move {r : Step} (i : Instruction) (p : Phase) (old new : List Move) (outer added : List Frame)
      (frames : t.frames = .phase i p old :: outer)
      (stack : r.thread.frames = added ++ .phase i p new :: outer)
      (fresh : ∀ f ∈ added, f.Fresh) (run : added ≠ [] → r.thread.control = .run)
      (sits : Nested w (.phase i p new :: outer) → Nested w (added ++ .phase i p new :: outer))
      (spawned : r.spawned = []) (silent : ∀ o ∈ r.seen, o.Silent) : Stride w t r
  | returned (i : Instruction) (p : Phase) (outer : List Frame)
      (frames : t.frames = .phase i p [] :: outer) :
      Stride w t ⟨.nothing, t.give outer .ok, [], [.returned i.stream p]⟩
  | aborted (i : Instruction) (p : Phase) (moves : List Move) (outer : List Frame) (panic : Panic)
      (frames : t.frames = .phase i p moves :: outer) :
      Stride w t ⟨.nothing, t.fail outer panic, [], [.aborted i.stream p]⟩
  | begin (i : Instruction) (p : Phase) (phases : List Phase) (outer : List Frame)
      (frames : t.frames = .run i (p :: phases) :: outer) (run : t.control = .run)
      (ready : i.status = p.before) :
      Stride w t ⟨.nothing, t.goto (.phase i p (i.behavior.moves p) :: .run i (p :: phases) :: outer),
        [], [.began i.stream p i.status]⟩
  | refuse (i : Instruction) (p : Phase) (phases : List Phase) (outer : List Frame) (v : Violation)
      (frames : t.frames = .run i (p :: phases) :: outer) (run : t.control = .run)
      (early : i.status ≠ p.before) : Stride w t (t.raise outer (.violation v))
  | advance (i : Instruction) (p : Phase) (phases : List Phase) (outer : List Frame) (reply : Reply)
      (frames : t.frames = .run i (p :: phases) :: outer) (control : t.control = .reply reply) :
      Stride w t ⟨.nothing, t.goto (.run (i.advance p) phases :: outer), [], []⟩
  /-- An instruction is through with its phases. -/
  | done (i : Instruction) (outer : List Frame) (reply : Reply)
      (frames : t.frames = .run i [] :: outer) (calm : ∀ panic, t.control ≠ .unwind panic) :
      Stride w t ⟨.nothing, t.give outer reply, [], []⟩
  | fall (i : Instruction) (phases : List Phase) (outer : List Frame) (panic : Panic)
      (frames : t.frames = .run i phases :: outer) (control : t.control = .unwind panic) :
      Stride w t ⟨.nothing, t.fail outer panic, [], []⟩
  | visit (s : Nat) (left : List Nat) (total : Nat) (outer : List Frame)
      (frames : t.frames = .schedule (s :: left) total :: outer) (run : t.control = .run) :
      Stride w t ⟨.nothing, t.goto (.drain s .enter 0 :: .schedule left total :: outer), [], []⟩
  | collect (left : List Nat) (total : Nat) (outer : List Frame) (reply : Reply)
      (frames : t.frames = .schedule left total :: outer) (control : t.control = .reply reply) :
      Stride w t ⟨.nothing, t.goto (.schedule left (total + reply.toCount) :: outer), [], []⟩
  | sum (total : Nat) (outer : List Frame) (frames : t.frames = .schedule [] total :: outer)
      (run : t.control = .run) : Stride w t ⟨.nothing, t.give outer (.count total), [], []⟩
  | forsake (left : List Nat) (total : Nat) (outer : List Frame) (panic : Panic)
      (frames : t.frames = .schedule left total :: outer) (control : t.control = .unwind panic) :
      Stride w t ⟨.nothing, t.fail outer panic, [], []⟩
  | drain {r : Step} (s : Nat) (p : DrainPoint) (e : Nat) (outer : List Frame)
      (frames : t.frames = .drain s p e :: outer) (turn : Turn w t r) : Stride w t r

namespace Stride

variable {t : Thread}

theorem raise_seen_silent (t : Thread) (frames : List Frame) (panic : Panic) :
    ∀ o ∈ (t.raise frames panic).seen, o.Silent := by
  cases panic <;> simp [Thread.raise, Thread.notice, Occurrence.Silent]

/-- A plain frame is left with a reply or a panic. -/
theorem of_return {frame : Frame} {d : Deed} {x : Thread} {seen : List Occurrence}
    (frames : t.frames = frame :: outer) (plain : frame.Plain) (stack : x.frames = outer)
    (silent : ∀ o ∈ seen, o.Silent) : Stride w t ⟨d, x, [], seen⟩ :=
  .plain frame outer [] frames plain (by simpa using stack) (by simp) (by simp) And.right
    (by simp) silent

theorem of_raise {frame : Frame} {panic : Panic} (frames : t.frames = frame :: outer)
    (plain : frame.Plain) : Stride w t (t.raise outer panic) :=
  .plain frame outer [] frames plain rfl (by simp) (by simp) And.right (by simp [Thread.raise])
    (raise_seen_silent t outer panic)

/-- A plain frame gives way to others. -/
theorem of_goto {frame : Frame} {d : Deed} {x : Thread} {seen : List Occurrence} (added : List Frame)
    (frames : t.frames = frame :: outer) (plain : frame.Plain) (stack : x.frames = added ++ outer)
    (run : x.control = .run) (fresh : ∀ f ∈ added, f.Fresh)
    (sits : Nested w (frame :: outer) → Nested w (added ++ outer)) (silent : ∀ o ∈ seen, o.Silent) :
    Stride w t ⟨d, x, [], seen⟩ :=
  .plain frame outer added frames plain stack fresh (fun _ => run) sits (by simp) silent

theorem of_submit {frame : Frame} (frames : t.frames = frame :: outer) (plain : frame.Plain)
    (outcome : World.Submission) : Stride w t (t.submit w outer outcome) := by
  cases outcome with
  | rejected error => exact of_return frames plain rfl (by simp)
  | accepted s m => exact of_return frames plain rfl (by simp [Thread.notice, Occurrence.Silent])

theorem of_command {c : Command} {fresh : Nat} {r : Step}
    (frames : t.frames = .command c :: outer) (h : t.stepCommand? w fresh c outer = some r) :
    Stride w t r := by
  have plain : (Frame.command c).Plain := trivial
  cases c with
  | store command =>
    simp only [Thread.stepCommand?] at h
    split at h <;> cases h
    · exact of_raise frames plain
    · exact of_return frames plain rfl (by simp)
  | query command =>
    simp only [Thread.stepCommand?, Option.some.injEq] at h
    subst h
    split
    · exact of_raise frames plain
    · exact of_return frames plain rfl (by simp)
  | receive name operand | receiveMessage name operand =>
    simp only [Thread.stepCommand?, Option.some.injEq] at h
    subst h
    split
    · exact of_raise frames plain
    · exact of_submit frames plain _
  | enqueue category name operand =>
    simp only [Thread.stepCommand?, Option.some.injEq] at h
    subst h
    split
    · exact of_raise frames plain
    · split
      · exact of_return frames plain rfl (by simp)
      · exact of_submit frames plain _
  | schedule =>
    cases h
    refine of_goto [.schedule _ 0] frames plain rfl rfl (by simp [Frame.Fresh]) ?_ (by simp)
    exact fun h => ⟨⟨fun s hs => List.mem_range.1 hs, h.1⟩, h.2⟩
  | scheduleConcurrently =>
    cases h
    refine .plain _ outer [.join _] frames plain rfl (by simp [Frame.Fresh]) (fun _ => rfl) id ?_
      (by simp)
    simp only [List.mem_map, List.mem_range]
    rintro x ⟨s, hs, rfl⟩
    exact ⟨s, hs, rfl⟩
  | runPending category =>
    simp only [Thread.stepCommand?, Option.some.injEq] at h
    subst h
    split
    · exact of_return frames plain rfl (by simp)
    next s found =>
      refine of_goto [.drain s .enter 0] frames plain rfl rfl (by simp [Frame.Fresh]) ?_ (by simp)
      exact fun h => ⟨⟨World.lt_of_streamOf? found, fun f hf => .inl (h.1 f hf)⟩, h.2⟩

theorem of_action {a : Accessor} {action : Action} {r : Step}
    (frames : t.frames = .action a action :: outer) (h : t.stepAction? w a action outer = some r) :
    Stride w t r := by
  have plain : (Frame.action a action).Plain := trivial
  cases action with
  | access access =>
    simp only [Thread.stepAction?, Option.some.injEq] at h
    subst h
    split
    · exact of_raise frames plain
    · split
      · exact of_return frames plain rfl (by simp)
      · exact of_raise frames plain
  | panic message => cases h; exact of_raise frames plain
  | attempt action =>
    cases h
    refine of_goto [.action a action, .catching] frames plain rfl rfl (by simp [Frame.Fresh]) ?_
      (by simp)
    exact fun h => ⟨⟨h.1.1, by simp [Frame.Open]⟩, h.1.2, h.2⟩
  | step command =>
    cases h
    exact of_goto [.command command] frames plain rfl rfl (by simp [Frame.Fresh])
      (fun h => ⟨h.1.2, h.2⟩) (by simp)
  | thread command =>
    cases h
    refine of_goto [.command command, .helper t.spans, .catching] frames plain rfl rfl
      (by simp [Frame.Fresh]) ?_ (by simp)
    exact fun h => ⟨by simp [Frame.Fits, Frame.Open], by simp [Frame.Fits, Frame.Open], h.1.2, h.2⟩
  | signal gate => cases h; exact of_return frames plain rfl (by simp)
  | wait gate =>
    simp only [Thread.stepAction?] at h
    split at h <;> cases h
    exact of_return frames plain rfl (by simp)

/-- A move that only leaves its phase behind. -/
theorem of_stay {i : Instruction} {p : Phase} {old new : List Move} {x : Thread} {d : Deed}
    {seen : List Occurrence} (frames : t.frames = .phase i p old :: outer)
    (stack : x.frames = .phase i p new :: outer) (silent : ∀ o ∈ seen, o.Silent) :
    Stride w t ⟨d, x, [], seen⟩ :=
  .move i p old new outer [] frames (by simpa using stack) (by simp) (by simp) id rfl silent

theorem of_move_raise {i : Instruction} {p : Phase} {old new : List Move} {panic : Panic}
    (frames : t.frames = .phase i p old :: outer) :
    Stride w t (t.raise (.phase i p new :: outer) panic) :=
  .move i p old new outer [] frames rfl (by simp) (by simp) id rfl
    (raise_seen_silent t _ panic)

theorem of_move {i : Instruction} {p : Phase} {move : Move} {moves : List Move}
    (frames : t.frames = .phase i p (move :: moves) :: outer) :
    Stride w t (t.stepMove w i move (.phase i p moves :: outer)) := by
  cases move with
  | report what query =>
    simp only [Thread.stepMove]
    split
    · exact of_stay frames rfl (by simp [Occurrence.Silent])
    · exact of_move_raise frames
  | panic message => exact of_move_raise frames
  | drainOwn =>
    refine .move i p _ moves outer [.drain i.stream .enter 0, .logDrain i.stream] frames rfl
      (by simp [Frame.Fresh]) (fun _ => rfl) ?_ rfl (by simp [Thread.stepMove])
    -- The stream is known to the instruction that stands right below the phase.
    intro h
    obtain ⟨phases, rest, rfl⟩ := h.1
    exact ⟨⟨h.2.1.2.1.known, by simp [Frame.Open]⟩, by simp [Frame.Fits, Frame.Open], h⟩
  | issue command =>
    exact .move i p _ moves outer [.command command] frames rfl (by simp [Frame.Fresh])
      (fun _ => rfl) (fun h => ⟨by simp [Frame.Fits, Frame.Open], h⟩) rfl
      (by simp [Thread.stepMove])
  | lendBlob mode bound =>
    simp only [Thread.stepMove]
    split
    · exact of_move_raise frames
    next handle actions _ =>
      split
      · exact of_move_raise frames
      next storage _ =>
        exact .move i p _ moves outer [.borrow _ actions] frames rfl (by simp [Frame.Fresh])
          (fun _ => rfl) (fun h => ⟨⟨i, p, moves, outer, rfl, rfl, rfl⟩, h⟩) rfl
          (by simp [Thread.notice, Occurrence.Silent])
  | bindPublished bound =>
    simp only [Thread.stepMove]
    split
    · exact of_move_raise frames
    · split
      · exact of_move_raise frames
      · exact of_stay frames rfl (by simp [Thread.notice, Occurrence.Silent])

theorem of_run (i : Instruction) (phases : List Phase) (frames : t.frames = .run i phases :: outer)
    (run : t.control = .run) : Stride w t (t.stepRun i phases outer) := by
  cases phases with
  | nil => exact .done i outer .ok frames (by simp [run])
  | cons p phases =>
    simp only [Thread.stepRun, Instruction.checkStatus]
    by_cases ready : i.status = p.before
    · rw [if_pos ready]
      exact .begin i p phases outer frames run ready
    · rw [if_neg ready]
      exact .refuse i p phases outer _ frames run ready

theorem of_frame {frame : Frame} {fresh : Nat} {outcomes : Nat → Option (Except Panic Reply)}
    {r : Step} (frames : t.frames = frame :: outer) (run : t.control = .run)
    (h : t.stepFrame? w fresh outcomes frame outer = some r) : Stride w t r := by
  cases frame with
  | command command => exact of_command frames h
  | schedule left total =>
    cases left <;> cases h
    · exact .sum total outer frames run
    · exact .visit _ _ total outer frames run
  | drain s p e => cases h; exact .drain s p e outer frames (.of_drain s e p frames run)
  | run i phases => cases h; exact of_run i phases frames run
  | phase i p moves =>
    cases moves <;> cases h
    · exact .returned i p outer frames
    · exact of_move frames
  | borrow a actions =>
    simp only [Thread.stepFrame?] at h
    split at h <;> cases h
    exact of_goto [.callback a actions] frames trivial rfl rfl (by simp [Frame.Fresh]) id (by simp)
  | callback a actions =>
    cases actions <;> cases h
    · exact of_return frames trivial rfl (by simp)
    next action actions =>
      refine of_goto [.action a action, .log a.category action.name, .callback a actions] frames
        trivial rfl rfl (by simp [Frame.Fresh]) ?_ (by simp)
      exact fun h => ⟨⟨rfl, by simp [Frame.Open]⟩, by simp [Frame.Fits, Frame.Open], h⟩
  | action a action => exact of_action frames h
  | log | logDrain | catching | helper => cases h; exact of_return frames trivial rfl (by simp)
  | join threads =>
    simp only [Thread.stepFrame?] at h
    split at h
    · cases h
    · split at h <;> cases h <;> exact of_return frames trivial rfl (by simp)

theorem of_reply {frame : Frame} {reply : Reply} (frames : t.frames = frame :: outer)
    (control : t.control = .reply reply) : Stride w t (t.stepReply w reply frame outer) := by
  cases frame with
  | drain s p e => exact .drain s p e outer frames (.of_reply frames control)
  | run i phases =>
    cases phases with
    | nil => exact .done i outer reply frames (by simp [control])
    | cons p phases => exact .advance i p phases outer reply frames control
  | schedule left total => exact .collect left total outer reply frames control
  | phase i p moves => exact of_stay frames rfl (by simp)
  | callback a actions =>
    exact of_goto [.callback a actions] frames trivial rfl rfl (by simp [Frame.Fresh]) id (by simp)
  | log => exact of_return frames trivial rfl (by simp [Occurrence.Silent])
  | logDrain s => exact of_goto [] frames trivial rfl rfl (by simp) And.right (by simp [Occurrence.Silent])
  | command | borrow | action | catching | join | helper => exact of_return frames trivial rfl (by simp)

theorem of_unwind {frame : Frame} {panic : Panic} (frames : t.frames = frame :: outer)
    (control : t.control = .unwind panic) : Stride w t (t.stepUnwind panic frame outer) := by
  cases frame with
  | drain s p e => exact .drain s p e outer frames (.of_unwind frames control)
  | run i phases => exact .fall i phases outer panic frames control
  | phase i p moves => exact .aborted i p moves outer panic frames
  | schedule left total => exact .forsake left total outer panic frames control
  | command | callback | borrow | action | log | logDrain | catching | join | helper =>
    exact of_return frames trivial rfl (by simp)

end Stride

theorem Stride.spawned {t : Thread} {r : Step} (h : Stride w t r) :
    ∀ x ∈ r.spawned, ∃ s < w.streams.length, x = .worker s := by
  cases h with
  | plain _ _ _ _ _ _ _ _ _ spawned => exact spawned
  | move _ _ _ _ _ _ _ _ _ _ _ spawned => simp [spawned]
  | drain s p e outer frames turn =>
    cases turn with
    | calm frame rest added frames' calm =>
      rw [frames] at frames'
      cases frames'
      exact calm.elim
    | _ => simp
  | _ => simp [Thread.raise]

theorem Thread.stride_of_step? {w : World} {t : Thread} {fresh : Nat}
    {outcomes : Nat → Option (Except Panic Reply)} {r : Step}
    (h : t.step? w fresh outcomes = some r) : Stride w t r := by
  simp only [Thread.step?] at h
  split at h
  · cases h
  next frame outer frames =>
    split at h
    next run => exact .of_frame frames run h
    next reply control => cases h; exact .of_reply frames control
    next panic control => cases h; exact .of_unwind frames control

/-- A stride leaves a stack nested. -/
theorem Stride.nested {w : World} {t : Thread} {r : Step} (h : Stride w t r)
    (ht : Nested w t.frames) (pending : ∀ s, ∀ message ∈ w.queueAt s,
      message.descriptor.category = w.categoryAt s) : Nested w r.thread.frames := by
  cases h with
  | plain frame outer added frames plain stack fresh run sits =>
    rw [frames] at ht
    rw [stack]
    exact sits ht
  | move i p old new outer added frames stack fresh run sits =>
    rw [frames] at ht
    rw [stack]
    exact sits ht
  | begin i p phases outer frames =>
    rw [frames] at ht
    exact ⟨⟨phases, outer, rfl⟩, ht⟩
  | advance i p phases outer reply frames =>
    rw [frames] at ht
    obtain ⟨⟨due, routes, standing⟩, below⟩ := ht
    refine ⟨⟨?_, ⟨routes.known, routes.category⟩, standing⟩, below⟩
    cases i with
    | mk message stream status => cases status <;> cases due <;> rfl
  | returned _ _ _ frames | aborted _ _ _ _ _ frames | refuse _ _ _ _ _ frames | done _ _ _ frames
  | fall _ _ _ _ frames | sum _ _ frames | forsake _ _ _ _ frames =>
    rw [frames] at ht
    exact ht.2
  | visit s left total outer frames =>
    rw [frames] at ht
    obtain ⟨⟨known, above⟩, below⟩ := ht
    refine ⟨⟨known s List.mem_cons_self, by simp [Frame.Schedules]⟩, ⟨?_, above⟩, below⟩
    exact fun s' hs' => known s' (List.mem_cons_of_mem s hs')
  | collect left total outer reply frames =>
    rw [frames] at ht
    exact ht
  | drain s p e outer frames turn =>
    rw [frames] at ht
    obtain ⟨⟨known, above⟩, below⟩ := ht
    have calm {f : Frame} (hf : f.Calm) {rest : List Frame} : t.frames ≠ f :: rest := by
      rw [frames]
      rintro same
      cases same
      exact hf
    cases turn with
    | calm frame rest added frames' hf | push frame rest _ _ _ _ frames' hf
    | drain frame rest added _ frames' hf | enlist frame rest _ frames' hf =>
      exact (calm hf frames').elim
    | dismiss x saved rest frames' | proceed i i' phases phases' rest added seen frames'
    | finish x i phases rest seen frames' =>
      rw [frames] at frames'
      cases frames'
    | busy s e rest frames' | rest s e rest frames' | abandon s e p rest panic frames' =>
      rw [frames] at frames'
      cases frames'
      exact below
    | seize s e rest frames' | dry s e p rest frames' | yield s e rest frames'
    | again s e rest frames' | complete s e p rest reply frames' =>
      rw [frames] at frames'
      cases frames'
      exact ⟨⟨known, above⟩, below⟩
    | start s e p rest message queue frames' run point first =>
      rw [frames] at frames'
      cases frames'
      have routed := pending s message (by rw [first]; exact List.mem_cons_self)
      exact ⟨⟨rfl, ⟨known, routed⟩, e, outer, rfl⟩, ⟨known, above⟩, below⟩

namespace Machine

variable {m m' : Machine} {seen new : List Occurrence} {i : Nat}

theorem step_of_stepAt? (h : m.stepAt? i = some (m', seen)) : ∃ t r, m.threads[i]? = some t ∧
    t.step? m.world m.threads.length m.outcome? = some r ∧ m' = m.stepped i r ∧ seen = r.seen := by
  simp only [stepAt?, Option.bind_eq_bind, Option.bind_eq_some_iff] at h
  obtain ⟨t, found, r, step, h⟩ := h
  cases h
  exact ⟨t, r, found, step, rfl, rfl⟩

/-- The end of a wait is a turn and a stride like any step. -/
theorem stride_of_expireAt? (h : m.expireAt? i = some (m', seen)) : ∃ t r,
    m.threads[i]? = some t ∧ Turn m.world t r ∧ Stride m.world t r ∧ m' = m.stepped i r ∧
      seen = r.seen := by
  simp only [expireAt?, Option.bind_eq_bind, Option.bind_eq_some_iff] at h
  obtain ⟨t, found, h⟩ := h
  split at h
  next a gate outer frames control =>
    cases h
    refine ⟨t, ⟨.nothing, t.give outer (.flag false), [], []⟩, found, ?_, ?_, ?_, rfl⟩
    · exact .of_return frames trivial trivial rfl rfl (by simp)
    · exact .of_return frames trivial rfl (by simp)
    · simp [stepped]
  · cases h

/-- Every stack is nested, and every message waits where it belongs. -/
structure Orderly (m : Machine) : Prop where
  nested : ∀ t ∈ m.threads, Nested m.world t.frames
  pending : ∀ s, ∀ message ∈ m.world.queueAt s,
    message.descriptor.category = m.world.categoryAt s

/-- What a stream accepts is of its category. -/
theorem Moves.routed_of_accepted (h : m.Moves new m') {s : Nat} {message : Message}
    (mem : message ∈ acceptedOn s new) :
    message.descriptor.category = m.world.categoryAt s := by
  have calm {new : List Occurrence} (calm : ∀ o ∈ new, o.Calm) : message ∉ acceptedOn s new := by
    simp [acceptedOn_calm calm]
  have one {i : Nat} {other : Message} (routed : other.descriptor.category = m.world.categoryAt i)
      (mem : message ∈ acceptedOn s [.accepted i other]) :
      message.descriptor.category = m.world.categoryAt s := by
    by_cases hi : i = s
    · obtain rfl : message = other := by
        simpa [acceptedOn, Occurrence.acceptedOn?, hi] using mem
      rw [routed, hi]
    · simp [acceptedOn, Occurrence.acceptedOn?, hi] at mem
  have turned {t : Thread} {r : Step} (turn : Turn m.world t r) (mem : message ∈ acceptedOn s r.seen) :
      message.descriptor.category = m.world.categoryAt s := by
    cases turn with
    | push frame outer i other reply n frames _ known routed => exact one routed mem
    | calm _ _ _ _ _ _ _ _ _ _ silent | proceed _ _ _ _ _ _ _ _ _ _ _ silent
    | finish _ _ _ _ _ _ _ _ _ silent => exact (calm silent mem).elim
    | _ => simp [acceptedOn, Occurrence.acceptedOn?] at mem
  cases h with
  | step i h =>
    obtain ⟨t, r, -, turn, -, rfl⟩ := turn_of_stepAt? h
    exact turned turn mem
  | expire i h =>
    obtain ⟨t, r, -, turn, -, rfl⟩ := turn_of_expireAt? h
    exact turned turn mem
  | call | revise => simp [acceptedOn] at mem
  | offer i other known accepted =>
    refine one ?_ mem
    simp only [World.enqueue] at accepted
    split at accepted
    next routed => exact routed
    · cases accepted

theorem Moves.pending (move : m.Moves new m') (h : m.Orderly) (s : Nat) (message : Message)
    (mem : message ∈ m'.world.queueAt s) :
    message.descriptor.category = m'.world.categoryAt s := by
  have place : m'.world.categoryAt s = m.world.categoryAt s := by
    obtain ⟨d, hd⟩ := move.world
    rw [hd, World.categoryAt_after]
  have held : message ∈ m.world.queueAt s ++ acceptedOn s new := by
    rw [← move.ledger s]
    exact List.mem_append_right _ mem
  rw [place]
  rcases List.mem_append.1 held with waiting | fresh
  · exact h.pending s message waiting
  · exact move.routed_of_accepted fresh

theorem Orderly.stepped (h : m.Orderly) {t : Thread} {r : Step} (found : m.threads[i]? = some t)
    (stride : Stride m.world t r) : ∀ x ∈ (m.stepped i r).threads, Nested m.world x.frames := by
  intro x hx
  rcases List.mem_append.1 hx with hx | hx
  · rcases List.mem_or_eq_of_mem_set hx with hx | rfl
    · exact h.nested x hx
    · exact stride.nested (h.nested t (List.mem_of_getElem? found)) h.pending
  · obtain ⟨s, known, rfl⟩ := stride.spawned x hx
    exact ⟨⟨known, by simp⟩, trivial⟩

theorem Moves.orderly (move : m.Moves new m') (h : m.Orderly) : m'.Orderly := by
  refine ⟨?_, move.pending h⟩
  cases move with
  | step i step =>
    obtain ⟨t, r, found, taken, rfl, -⟩ := step_of_stepAt? step
    exact fun x hx => (nested_after m.world r.deed _).2
      (h.stepped found (Thread.stride_of_step? taken) x hx)
  | expire i step =>
    obtain ⟨t, r, found, -, stride, rfl, -⟩ := stride_of_expireAt? step
    exact fun x hx => (nested_after m.world r.deed _).2 (h.stepped found stride x hx)
  | call command =>
    intro x hx
    rcases List.mem_append.1 hx with hx | hx
    · exact h.nested x hx
    · obtain rfl := List.mem_singleton.1 hx
      exact ⟨by simp [Frame.Fits], trivial⟩
  | offer s message => exact fun x hx => (nested_after m.world (.push s message) _).2 (h.nested x hx)
  | revise i t t' found revised =>
    have nested := h.nested t (List.mem_of_getElem? found)
    intro x hx
    rcases List.mem_or_eq_of_mem_set hx with hx | rfl
    · exact h.nested x hx
    · cases revised with
      | moves i p old new outer frames | actions a old new outer frames =>
        rw [frames] at nested
        exact nested

theorem Reaches.orderly {m₀ : Machine} (run : m₀.Reaches seen m) (h : m₀.Orderly) : m.Orderly := by
  induction run with
  | refl => exact h
  | move _ last ih => exact last.orderly ih

theorem Orderly.init {config : MachineConfig} {registry : Registry} {w : World}
    (created : World.create config registry = .ok w) : Orderly ⟨w, []⟩ :=
  ⟨by simp, by simp [World.queueAt_create created]⟩

end Machine

end StreamMachine
