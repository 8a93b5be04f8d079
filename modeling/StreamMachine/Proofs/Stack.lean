import StreamMachine.Proofs.Reach

/-! The shape of a thread's stack. A drain below other frames has an instruction in flight, which
runs in the frame right above it, and the spans of a thread name the instructions that are in flight
on it. Only the drain on top of a stack may stand between two instructions. -/
namespace StreamMachine

variable {place : Nat → StreamCategory}

/-- Stacks with the spans that belong to them; `place` tells the category of each stream. -/
inductive Grounded (place : Nat → StreamCategory) : List Frame → List Span → Prop
  | nil : Grounded place [] []
  | calm {f : Frame} {outer : List Frame} {spans : List Span} (hf : f.Calm)
      (below : Grounded place outer spans) : Grounded place (f :: outer) spans
  | helper {outer : List Frame} {saved : List Span} (below : Grounded place outer saved) :
      Grounded place (.helper saved :: outer) []
  | run {i : Instruction} {phases : List Phase} {e : Nat} {outer : List Frame} {spans : List Span}
      (below : Grounded place outer spans) :
      Grounded place (.run i phases :: .drain i.stream .execute e :: outer)
        (⟨i.name, place i.stream⟩ :: spans)

namespace Grounded

variable {f : Frame} {outer : List Frame} {spans : List Span}

theorem of_cons (h : Grounded place (f :: outer) spans) (hf : f.Calm) :
    Grounded place outer spans := by
  cases h with
  | calm _ below => exact below
  | helper | run => exact hf.elim

theorem append {added : List Frame} (ha : ∀ f ∈ added, f.Calm) (h : Grounded place outer spans) :
    Grounded place (added ++ outer) spans := by
  induction added with
  | nil => exact h
  | cons f added ih =>
    exact .calm (ha f List.mem_cons_self) (ih fun g hg => ha g (List.mem_cons_of_mem f hg))

theorem not_drain {s e : Nat} {p : DrainPoint} : ¬ Grounded place (.drain s p e :: outer) spans := by
  intro h
  cases h with
  | calm hf => exact hf

end Grounded

/-- A thread in host code or in a callback's company, in the loop of a drain, or at the end of an
instruction that its drain has yet to take note of. -/
inductive Thread.Shaped (place : Nat → StreamCategory) (t : Thread) : Prop
  | host (stack : Grounded place t.frames t.spans)
  | loop (s e : Nat) (p : DrainPoint) (outer : List Frame) (frames : t.frames = .drain s p e :: outer)
      (run : t.control = .run) (idle : p ≠ .execute) (stack : Grounded place outer t.spans)
  | ending (s e : Nat) (span : Span) (outer : List Frame) (spans : List Span)
      (frames : t.frames = .drain s .execute e :: outer) (control : t.control ≠ .run)
      (entered : t.spans = span :: spans) (stack : Grounded place outer spans)

namespace Thread.Shaped

variable {t : Thread} {outer : List Frame}

theorem ofCommand (c : Command) : (Thread.ofCommand c).Shaped place :=
  .host (.calm trivial .nil)

theorem worker (s : Nat) : (Thread.worker s).Shaped place :=
  .loop s 0 .enter [] rfl rfl (by simp) .nil

theorem below {frame : Frame} (h : t.Shaped place) (frames : t.frames = frame :: outer)
    (calm : frame.Calm) : Grounded place outer t.spans := by
  cases h with
  | host stack => rw [frames] at stack; exact stack.of_cons calm
  | loop s e p outer frames' | ending s e span outer spans frames' =>
    rw [frames] at frames'
    cases frames'
    exact calm.elim

theorem below_run {i : Instruction} {phases : List Phase} (h : t.Shaped place)
    (frames : t.frames = .run i phases :: outer) :
    ∃ e rest spans, outer = .drain i.stream .execute e :: rest ∧
      t.spans = ⟨i.name, place i.stream⟩ :: spans ∧ Grounded place rest spans := by
  cases h with
  | host stack =>
    rw [frames] at stack
    generalize t.spans = spans at stack
    cases stack with
    | calm hf => exact hf.elim
    | run below => exact ⟨_, _, _, rfl, rfl, below⟩
  | loop s e p outer frames' | ending s e span outer spans frames' =>
    rw [frames] at frames'
    cases frames'

theorem below_helper {saved : List Span} (h : t.Shaped place)
    (frames : t.frames = .helper saved :: outer) : Grounded place outer saved := by
  cases h with
  | host stack =>
    rw [frames] at stack
    generalize t.spans = spans at stack
    cases stack with
    | calm hf => exact hf.elim
    | helper below => exact below
  | loop s e p outer frames' | ending s e span outer spans frames' =>
    rw [frames] at frames'
    cases frames'

theorem below_loop {s e : Nat} {p : DrainPoint} (h : t.Shaped place)
    (frames : t.frames = .drain s p e :: outer) (run : t.control = .run) :
    p ≠ .execute ∧ Grounded place outer t.spans := by
  cases h with
  | host stack => rw [frames] at stack; exact (Grounded.not_drain stack).elim
  | loop s e p outer frames' _ idle stack =>
    rw [frames] at frames'
    cases frames'
    exact ⟨idle, stack⟩
  | ending s e span outer spans frames' control => exact (control run).elim

theorem below_ending {s e : Nat} {p : DrainPoint} (h : t.Shaped place)
    (frames : t.frames = .drain s p e :: outer) (control : t.control ≠ .run) :
    p = .execute ∧ Grounded place outer t.spans.tail := by
  cases h with
  | host stack => rw [frames] at stack; exact (Grounded.not_drain stack).elim
  | loop s e p outer frames' run => exact (control run).elim
  | ending s e span outer spans frames' _ entered stack =>
    rw [frames] at frames'
    cases frames'
    exact ⟨rfl, by rwa [entered]⟩

end Thread.Shaped

/-- A turn leaves a thread in shape. -/
theorem Turn.shaped {w : World} {t : Thread} {r : Step} (h : Turn w t r) (ht : t.Shaped w.categoryAt) :
    r.thread.Shaped w.categoryAt := by
  cases h with
  | calm frame outer added frames calm deed stack above spans =>
    exact .host (by rw [stack, spans]; exact (ht.below frames calm).append above)
  | push frame outer s m reply n frames calm => exact .host (ht.below frames calm)
  | drain frame outer added s frames calm above =>
    exact .loop s 0 .enter _ rfl rfl (by simp) ((ht.below frames calm).append above)
  | enlist frame outer c frames calm =>
    exact .host (.calm trivial (.helper (.calm trivial (ht.below frames calm))))
  | dismiss x saved outer frames stack spans =>
    exact .host (by rw [stack, spans]; exact ht.below_helper frames)
  | proceed i i' phases phases' outer added seen frames stream message above =>
    obtain ⟨e, rest, spans, rfl, hs, below⟩ := ht.below_run frames
    have hn : i'.name = i.name := by rw [Instruction.name, message]; rfl
    refine .host ?_
    change Grounded _ (added ++ .run i' phases' :: .drain i.stream .execute e :: rest) t.spans
    rw [hs, ← stream, ← hn]
    exact (Grounded.run below).append above
  | finish x i phases outer seen frames stack control spans =>
    obtain ⟨e, rest, spans', rfl, hs, below⟩ := ht.below_run frames
    exact .ending i.stream e _ rest spans' stack control (spans.trans hs) below
  | busy s e outer frames run | rest s e outer frames run =>
    exact .host (ht.below_loop frames run).2
  | seize s e outer frames run =>
    exact .loop s e .take outer rfl rfl (by simp) (ht.below_loop frames run).2
  | start s e p outer m queue frames run =>
    exact .host (.run (i := ⟨m, s, .created⟩) (ht.below_loop frames run).2)
  | dry s e p outer frames run =>
    exact .loop s e .leave outer rfl rfl (by simp) (ht.below_loop frames run).2
  | yield s e outer frames run =>
    exact .loop s e .recheck outer rfl rfl (by simp) (ht.below_loop frames run).2
  | again s e outer frames run =>
    exact .loop s e .enter outer rfl rfl (by simp) (ht.below_loop frames run).2
  | complete s e p outer reply frames control =>
    exact .loop s (e + 1) .take outer rfl rfl (by simp) (ht.below_ending frames (by simp [control])).2
  | abandon s e p outer panic frames control =>
    exact .host (ht.below_ending frames (by simp [control])).2

theorem Thread.Revised.calm {t t' : Thread} (h : t.Revised t') : ∃ f g outer, Frame.Calm f ∧
    Frame.Calm g ∧ t.frames = f :: outer ∧ t'.frames = g :: outer ∧ t'.spans = t.spans := by
  cases h with
  | moves i p old new outer frames | actions a old new outer frames =>
    refine ⟨_, _, outer, ?_, ?_, frames, rfl, rfl⟩ <;> trivial

theorem Thread.Revised.shaped {t t' : Thread} (h : t.Revised t') (ht : t.Shaped place) :
    t'.Shaped place := by
  obtain ⟨f, g, outer, hf, hg, frames, frames', spans⟩ := h.calm
  exact .host (by rw [frames', spans]; exact .calm hg (ht.below frames hf))

end StreamMachine
