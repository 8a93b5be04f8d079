import StreamMachine.Proofs.Retry

/-! Messages whose behaviors report, bind and panic, but neither wait for anything nor call for
anything. Their instructions end after so many steps as they have moves, so calls to a stream that
holds no others come to their end. -/
namespace StreamMachine

open Relation (ReflTransGen)

/-- Moves of one step, which submit nothing. -/
def Move.Prompt : Move → Prop
  | .report .. | .panic _ | .bindPublished _ => True
  | .drainOwn | .issue _ | .lendBlob .. => False

def Message.Prompt (m : Message) : Prop :=
  ∀ phase, ∀ move ∈ m.descriptor.behavior.moves phase, move.Prompt

/-- A prompt instruction of a stream in the middle of a call. -/
inductive Hurried (s e : Nat) : List Frame → Prop
  | run (message : Message) (status : Status) (phases : List Phase) (prompt : message.Prompt) :
    Hurried s e [.run ⟨message, s, status⟩ phases, .drain s .execute e]
  | phase (message : Message) (status : Status) (p : Phase) (moves : List Move) (phases : List Phase)
    (prompt : message.Prompt) (rest : ∀ move ∈ moves, move.Prompt) :
    Hurried s e [.phase ⟨message, s, status⟩ p moves, .run ⟨message, s, status⟩ (p :: phases),
      .drain s .execute e]

/-- Steps that an instruction needs for its phases, at most. -/
def Message.work (m : Message) (phases : List Phase) : Nat :=
  (phases.map fun p => (m.descriptor.behavior.moves p).length + 4).sum

/-- Steps that a thread needs to the end of its instruction, at most. -/
def Thread.load (t : Thread) : Nat :=
  match t.frames, t.control with
  | .phase i _ moves :: .run _ phases :: _, .reply _ => moves.length + 4 + i.message.work phases.tail
  | .phase i _ moves :: .run _ phases :: _, _ => moves.length + 3 + i.message.work phases.tail
  | .run i phases :: _, .run => 1 + i.message.work phases
  | .run i phases :: _, .reply _ => 2 + i.message.work phases.tail
  | .run .. :: _, .unwind _ => 1
  | _, _ => 0

/-- A step that starts no thread and submits nothing. -/
structure Step.Modest (r : Step) (s : Nat) : Prop where
  spawned : r.spawned = []
  silent : acceptedOn s r.seen = []

theorem Step.Modest.raise (t : Thread) (frames : List Frame) (panic : Panic) (s : Nat) :
    (t.raise frames panic).Modest s :=
  ⟨rfl, acceptedOn_calm (Turn.raise_seen_calm t frames panic) s⟩

namespace Hurried

variable {s e : Nat} {m : Machine} {t : Thread} {r : Step}

/-- The next move of a phase leaves the phase with the moves behind it. -/
theorem next_move {move : Move} (prompt : move.Prompt) (w : World) (t : Thread) (i : Instruction)
    (inner : List Frame) (s : Nat) : let r := t.stepMove w i move inner
    r.Modest s ∧ r.thread.frames = inner ∧ ∀ reply, r.thread.control ≠ .reply reply := by
  cases move with
  | drainOwn | issue | lendBlob => exact prompt.elim
  | panic message =>
    exact ⟨.raise t inner _ s, rfl, by simp [Thread.stepMove, Thread.raise, Thread.fail]⟩
  | report what query =>
    simp only [Thread.stepMove]
    split
    · exact ⟨⟨rfl, by simp [acceptedOn, Occurrence.acceptedOn?]⟩, rfl, by simp [Thread.goto]⟩
    · exact ⟨.raise t inner _ s, rfl, by simp [Thread.raise, Thread.fail]⟩
  | bindPublished bound =>
    simp only [Thread.stepMove]
    split
    · exact ⟨.raise t inner _ s, rfl, by simp [Thread.raise, Thread.fail]⟩
    · split
      · exact ⟨.raise t inner _ s, rfl, by simp [Thread.raise, Thread.fail]⟩
      · exact ⟨⟨rfl, by simp [acceptedOn, Occurrence.acceptedOn?, Thread.notice]⟩, rfl,
          by simp [Thread.goto]⟩

/-- A step brings the instruction nearer to its end, or is its end. -/
theorem next (h : Hurried s e t.frames) (goes : t.Goes m r) : r.Modest s ∧
    (r.thread.frames = [.drain s .execute e] ∨
      Hurried s e r.thread.frames ∧ r.thread.load < t.load) := by
  generalize stack : t.frames = frames at h
  cases h with
  | run message status phases prompt =>
    cases control : t.control with
    | unwind panic =>
      obtain rfl := goes.of_unwind stack control
      exact ⟨⟨rfl, rfl⟩, .inl rfl⟩
    | reply reply =>
      obtain rfl := goes.of_reply stack control
      cases phases with
      | nil => exact ⟨⟨rfl, rfl⟩, .inl rfl⟩
      | cons p phases =>
        refine ⟨⟨rfl, rfl⟩, .inr ⟨.run message p.after phases prompt, ?_⟩⟩
        simp [Thread.load, stack, control, Thread.stepReply, Thread.goto, Instruction.advance]
    | run =>
      obtain step := goes.of_frame stack control (by simp)
      simp only [Thread.stepFrame?, Option.some.injEq] at step
      subst step
      cases phases with
      | nil => exact ⟨⟨rfl, rfl⟩, .inl rfl⟩
      | cons p phases =>
        simp only [Thread.stepRun]
        split
        · exact ⟨.raise t _ _ s, .inl rfl⟩
        · refine ⟨⟨rfl, by simp [acceptedOn, Occurrence.acceptedOn?]⟩,
            .inr ⟨.phase message status p _ phases prompt (prompt p), ?_⟩⟩
          simp only [Thread.load, stack, control, Thread.goto, Message.work, Instruction.behavior,
            List.map_cons, List.sum_cons, List.tail_cons]
          omega
  | phase message status p moves phases prompt rest =>
    cases control : t.control with
    | unwind panic =>
      obtain rfl := goes.of_unwind stack control
      refine ⟨⟨rfl, rfl⟩, .inr ⟨.run message status (p :: phases) prompt, ?_⟩⟩
      simp [Thread.load, stack, control, Thread.stepUnwind, Thread.fail]
      omega
    | reply reply =>
      obtain rfl := goes.of_reply stack control
      refine ⟨⟨rfl, rfl⟩, .inr ⟨.phase message status p moves phases prompt rest, ?_⟩⟩
      simp [Thread.load, stack, control, Thread.stepReply, Thread.goto]
    | run =>
      obtain step := goes.of_frame stack control (by simp)
      cases moves with
      | nil =>
        simp only [Thread.stepFrame?, Option.some.injEq] at step
        subst step
        refine ⟨⟨rfl, by simp [acceptedOn, Occurrence.acceptedOn?]⟩,
          .inr ⟨.run message status (p :: phases) prompt, ?_⟩⟩
        simp [Thread.load, stack, control, Thread.give]
      | cons move moves =>
        simp only [Thread.stepFrame?, Option.some.injEq] at step
        subst step
        obtain ⟨modest, frames, calm⟩ := next_move (rest move List.mem_cons_self) m.world t
          ⟨message, s, status⟩ [.phase ⟨message, s, status⟩ p moves,
            .run ⟨message, s, status⟩ (p :: phases), .drain s .execute e] s
        generalize t.stepMove m.world _ move _ = r at modest frames calm ⊢
        refine ⟨modest, .inr ⟨?_, ?_⟩⟩
        · rw [frames]
          exact .phase message status p moves phases prompt fun x hx =>
            rest x (List.mem_cons_of_mem move hx)
        · cases control' : r.thread.control with
          | reply reply => exact (calm reply control').elim
          | run | unwind => simp [Thread.load, frames, stack, control, control']

theorem can (h : Hurried s e t.frames) (m : Machine) : ∃ r, t.Goes m r := by
  generalize stack : t.frames = frames at h
  cases control : t.control with
  | reply | unwind => cases h <;> exact ⟨_, .step (by rw [Thread.step?, stack, control])⟩
  | run =>
    cases h with
    | run => exact ⟨_, .step (by rw [Thread.step?, stack, control]; rfl)⟩
    | phase _ _ _ moves =>
      cases moves <;> exact ⟨_, .step (by rw [Thread.step?, stack, control]; rfl)⟩

theorem busy (h : Hurried s e t.frames) (ids : List Nat) : ¬ t.WaitsFor ids := by
  rintro ⟨-, outer, join⟩
  rw [join] at h
  cases h

end Hurried

/-- The stacks of calls to a stream that holds prompt messages only. -/
inductive Brisk (category : StreamCategory) (s : Nat) : List Frame → Prop
  | call : Brisk category s [.command (.runPending category)]
  | drain (p : DrainPoint) (e : Nat) : Brisk category s [.drain s p e]
  | inside (e : Nat) {frames : List Frame} (h : Hurried s e frames) : Brisk category s frames
  | ended : Brisk category s []

theorem Brisk.next {category : StreamCategory} {s : Nat} {m : Machine} {t : Thread} {r : Step}
    (h : Brisk category s t.frames) (known : m.world.streamOf? category = some s)
    (pending : ∀ message ∈ m.world.queueAt s, message.Prompt) (goes : t.Goes m r) :
    r.Modest s ∧ Brisk category s r.thread.frames := by
  generalize stack : t.frames = frames at h
  cases h with
  | ended => exact (goes.frames_ne_nil stack).elim
  | inside e h =>
    obtain ⟨modest, frames | ⟨inside, -⟩⟩ := (stack ▸ h : Hurried s e t.frames).next goes
    · exact ⟨modest, frames ▸ .drain .execute e⟩
    · exact ⟨modest, .inside e inside⟩
  | call =>
    cases control : t.control with
    | run =>
      obtain step := goes.of_frame stack control (by simp)
      simp only [Thread.stepFrame?, Thread.stepCommand?, known, Option.some.injEq] at step
      subst step
      exact ⟨⟨rfl, rfl⟩, .drain .enter 0⟩
    | reply reply =>
      obtain rfl := goes.of_reply stack control
      exact ⟨⟨rfl, rfl⟩, .ended⟩
    | unwind panic =>
      obtain rfl := goes.of_unwind stack control
      exact ⟨⟨rfl, rfl⟩, .ended⟩
  | drain p e =>
    cases control : t.control with
    | run =>
      obtain step := goes.of_frame stack control (by simp)
      simp only [Thread.stepFrame?, Option.some.injEq] at step
      subst step
      cases p with
      | enter =>
        simp only [Thread.stepDrain]
        split
        · exact ⟨⟨rfl, by simp [acceptedOn, Occurrence.acceptedOn?]⟩, .ended⟩
        · exact ⟨⟨rfl, rfl⟩, .drain .take e⟩
      | take | execute =>
        simp only [Thread.stepDrain]
        split
        · exact ⟨⟨rfl, rfl⟩, .drain .leave e⟩
        next message queue first =>
          have prompt := pending message (by rw [World.queueAt, first]; exact List.mem_cons_self)
          exact ⟨⟨rfl, by simp [acceptedOn, Occurrence.acceptedOn?]⟩,
            .inside e (.run message .created _ prompt)⟩
      | leave => exact ⟨⟨rfl, rfl⟩, .drain .recheck e⟩
      | recheck =>
        simp only [Thread.stepDrain]
        split
        · exact ⟨⟨rfl, by simp [acceptedOn, Occurrence.acceptedOn?]⟩, .ended⟩
        · exact ⟨⟨rfl, rfl⟩, .drain .enter e⟩
    | reply reply =>
      obtain rfl := goes.of_reply stack control
      exact ⟨⟨rfl, by simp [Thread.stepReply, acceptedOn, Occurrence.acceptedOn?]⟩,
        .drain .take (e + 1)⟩
    | unwind panic =>
      obtain rfl := goes.of_unwind stack control
      exact ⟨⟨rfl, by simp [Thread.stepUnwind, acceptedOn, Occurrence.acceptedOn?]⟩, .ended⟩

theorem Brisk.busy {category : StreamCategory} {s : Nat} {t : Thread} (h : Brisk category s t.frames)
    (ids : List Nat) : ¬ t.WaitsFor ids := by
  rintro ⟨-, outer, join⟩
  rw [join] at h
  cases h with
  | inside e h => cases h

namespace Retry

variable {category : StreamCategory} {s : Nat} {m₀ : Machine} {x y : Retry} {past : List Occurrence}

/-- The messages that wait are prompt, and none has been added. -/
structure Quick (category : StreamCategory) (s : Nat) (x : Retry) : Prop where
  stack : ∃ t, x.machine.threads[x.place]? = some t ∧ Brisk category s t.frames
  pending : ∀ message ∈ x.machine.world.queueAt s, message.Prompt
  silent : acceptedOn s x.seen = []

theorem Quick.next (h : Quick category s x) (reached : Reached category m₀ x) (sound : m₀.Sound past)
    (known : m₀.world.streamOf? category = some s) (free : m₀.world.executingAt s = false)
    (step : Next category x y) : Quick category s y := by
  obtain ⟨t, found, brisk⟩ := h.stack
  obtain ⟨before, shown, m₁, trace, seen, ongoing⟩ := reached.ongoing sound known free
  cases step with
  | again panic unwound =>
    exact ⟨⟨.ofCommand (.runPending category), by simp [Machine.called], .call⟩, h.pending, h.silent⟩
  | go i z r found' covered goes =>
    obtain rfl : i = x.place := by
      obtain ⟨same, -⟩ | above := covered
      · exact same
      · have ended := (ongoing.begins.awaited.run ongoing.run).ended found brisk.busy above found'
        exact (goes.frames_ne_nil ended).elim
    obtain rfl : z = t := Option.some.inj (found'.symm.trans found)
    have here : x.machine.world.streamOf? category = some s :=
      ((ongoing.earlier.trans ongoing.run.reaches).streamOf? category).trans known
    obtain ⟨modest, brisk⟩ := brisk.next here h.pending goes
    refine ⟨⟨r.thread, Machine.getElem?_stepped found r, brisk⟩, ?_, ?_⟩
    · intro message mem
      have ledger := goes.turn_stride.1.ledger s
      rw [modest.silent, List.append_nil] at ledger
      exact h.pending message (ledger ▸ List.mem_append_right _ mem)
    · rw [acceptedOn_append, h.silent, modest.silent]
      rfl

theorem Reached.quick (h : Reached category m₀ x) (sound : m₀.Sound past)
    (known : m₀.world.streamOf? category = some s) (free : m₀.world.executingAt s = false)
    (prompt : ∀ message ∈ m₀.world.queueAt s, message.Prompt) : Quick category s x := by
  induction h with
  | refl =>
    exact ⟨⟨.ofCommand (.runPending category), by simp [first, Machine.called], .call⟩, prompt, rfl⟩
  | tail path step ih => exact ih.next path sound known free step

/-- A prompt instruction comes to its end. -/
theorem leaves_of_hurried (sound : m₀.Sound past) (known : m₀.world.streamOf? category = some s)
    (free : m₀.world.executingAt s = false) (e n : Nat) (x : Retry) (t : Thread)
    (h : Reached category m₀ x) (found : x.machine.threads[x.place]? = some t)
    (hurried : Hurried s e t.frames) (load : t.load = n) :
    Inevitable (Next category) (Leaves s e) x := by
  induction n using Nat.strong_induction_on generalizing x t with
  | _ n ih =>
    obtain ⟨before, shown, m₁, trace, seen, ongoing⟩ := h.ongoing sound known free
    have live : t.frames ≠ [] := by
      intro none
      rw [none] at hurried
      cases hurried
    obtain ⟨r, goes⟩ := hurried.can x.machine
    refine .later ⟨_, .go x.place t r found (.inl ⟨rfl, ?_⟩) goes⟩ fun y step => ?_
    · simpa [call, List.length_pos_iff] using live
    · obtain ⟨r, goes, foundy, -⟩ := ongoing.next_of_live found live hurried.busy step
      obtain ⟨-, frames | ⟨inside, less⟩⟩ := hurried.next goes
      · exact .now ⟨r.thread, foundy, frames⟩
      · exact ih _ (load ▸ less) y r.thread (h.tail step) foundy inside rfl

/-- Prompt messages submit no further work, and their instructions end. -/
theorem tame_of_prompt (sound : m₀.Sound past) (known : m₀.world.streamOf? category = some s)
    (free : m₀.world.executingAt s = false)
    (prompt : ∀ message ∈ m₀.world.queueAt s, message.Prompt) : Tame category s m₀ where
  silent x h := (h.quick sound known free prompt).silent
  ending x e h starts := by
    obtain ⟨t, found, -, message, frames⟩ := starts
    obtain ⟨z, found', brisk⟩ := (h.quick sound known free prompt).stack
    obtain rfl : z = t := Option.some.inj (found'.symm.trans found)
    have hurried : Hurried s e z.frames := by
      rw [frames] at brisk ⊢
      cases brisk with
      | inside e' h =>
        cases h with
        | run _ _ _ prompt => exact .run message .created _ prompt
    exact leaves_of_hurried sound known free e _ x z h found hurried rfl

end Retry

end StreamMachine
