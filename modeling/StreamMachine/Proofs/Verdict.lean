import StreamMachine.Proofs.Alone
import StreamMachine.Proofs.Idle
import StreamMachine.Proofs.Outcomes

/-! What becomes of a stream whose worker is alone. The worker ends with an empty queue and the
number of instructions it has run, or unwinds out of the first instruction that panics and leaves the
messages behind it where they are. -/
namespace StreamMachine

/-- Instructions of a stream that have completed. -/
def completions (s : Nat) (seen : List Occurrence) : Nat :=
  seen.countP fun | .completed i => i = s | _ => false

/-- Drains of a stream that have unwound. -/
def abandons (s : Nat) (seen : List Occurrence) : Nat :=
  seen.countP fun | .abandoned i _ => i = s | _ => false

@[simp] theorem completions_append (s : Nat) (xs ys : List Occurrence) :
    completions s (xs ++ ys) = completions s xs + completions s ys := List.countP_append

@[simp] theorem abandons_append (s : Nat) (xs ys : List Occurrence) :
    abandons s (xs ++ ys) = abandons s xs + abandons s ys := List.countP_append

theorem completions_calm {seen : List Occurrence} (h : ∀ o ∈ seen, o.Calm) (s : Nat) :
    completions s seen = 0 ∧ abandons s seen = 0 := by
  constructor
  all_goals
    refine List.countP_eq_zero.2 fun o ho => ?_
    have := h o ho
    cases o <;> first | exact this.elim | simp

/-- Starts are as many as ends, but for an instruction that is still running. -/
theorem count_turns {l : List Bool} {b : Bool} (h : (b :: l).IsChain (· ≠ ·)) :
    l.count true + b.toNat = l.count false + (l.getLast?.getD b).toNat := by
  induction l generalizing b with
  | nil => simp
  | cons c l ih =>
    obtain ⟨differ, rest⟩ := List.isChain_cons_cons.1 h
    have count := ih rest
    rw [List.getLast?_cons, Option.getD_some]
    cases b <;> cases c <;> simp_all
    all_goals omega

theorem count_true_turns (s : Nat) (seen : List Occurrence) :
    (turns s seen).count true = (startedOn s seen).length := by
  rw [turns, startedOn, List.count_filterMap, List.length_filterMap_eq_countP]
  refine List.countP_congr fun o _ => ?_
  cases o with
  | started i m => by_cases h : i = s <;> simp [Occurrence.turn?, Occurrence.startedOn?, h]
  | completed i | abandoned i =>
    by_cases h : i = s <;> simp [Occurrence.turn?, Occurrence.startedOn?, h]
  | _ => rfl

theorem count_false_turns (s : Nat) (seen : List Occurrence) :
    (turns s seen).count false = completions s seen + abandons s seen := by
  have one (o : Occurrence) : (turns s [o]).count false = completions s [o] + abandons s [o] := by
    cases o with
    | started i m => by_cases h : i = s <;> simp [turns, Occurrence.turn?, completions, abandons, h]
    | completed i | abandoned i =>
      by_cases h : i = s <;> simp [turns, Occurrence.turn?, completions, abandons, h]
    | _ => rfl
  induction seen with
  | nil => rfl
  | cons o seen ih =>
    rw [← List.singleton_append, turns_append, completions_append, abandons_append,
      List.count_append, ih, one]
    omega

namespace Turn

variable {w : World} {t : Thread} {r : Step} {s : Nat}

/-- A turn leaves all frames but the innermost where they are. -/
theorem above (h : Turn w t r) {frame : Frame} {outer : List Frame}
    (frames : t.frames = frame :: outer) : ∃ added, r.thread.frames = added ++ outer := by
  cases h with
  | calm frame' outer' added frames' _ _ stack =>
    rw [frames] at frames'
    cases frames'
    exact ⟨added, stack⟩
  | dismiss x saved outer' frames' stack | finish x i phases outer' seen frames' stack =>
    rw [frames] at frames'
    cases frames'
    exact ⟨[], stack⟩
  | drain frame' outer' added i frames' =>
    rw [frames] at frames'
    cases frames'
    exact ⟨.drain i .enter 0 :: added, rfl⟩
  | proceed i i' phases phases' outer' added seen frames' =>
    rw [frames] at frames'
    cases frames'
    exact ⟨added ++ [.run i' phases'], by simp [Thread.goto]⟩
  | push _ _ _ _ _ _ frames' | busy _ _ _ frames' | rest _ _ _ frames' | abandon _ _ _ _ _ frames' =>
    rw [frames] at frames'
    cases frames'
    exact ⟨[], rfl⟩
  | enlist _ _ c frames' =>
    rw [frames] at frames'
    cases frames'
    exact ⟨[.command c, .helper t.spans, .catching], rfl⟩
  | seize i e _ frames' | yield i e _ frames' | again i e _ frames' | complete i e _ _ _ frames'
  | dry i e _ _ frames' =>
    rw [frames] at frames'
    cases frames'
    exact ⟨[.drain i _ _], rfl⟩
  | start i e _ _ m _ frames' =>
    rw [frames] at frames'
    cases frames'
    exact ⟨[.run ⟨m, i, .created⟩ [.infer, .compute], .drain i .execute e], rfl⟩

theorem frames_ne_nil (h : Turn w t r) : t.frames ≠ [] := by
  cases h <;> simp_all

/-- Instructions of a stream end only in a drain of that stream. -/
theorem quiet (h : Turn w t r)
    (hs : ∀ p e outer, t.frames = .drain s p e :: outer → t.control = .run) :
    completions s r.seen = 0 ∧ abandons s r.seen = 0 := by
  cases h with
  | calm _ _ _ _ _ _ _ _ _ _ seen => exact completions_calm seen s
  | proceed _ _ _ _ _ _ _ _ _ _ _ seen | finish _ _ _ _ _ _ _ _ _ seen =>
    exact completions_calm seen s
  | complete i e p outer reply frames control =>
    have other : i ≠ s := by
      rintro rfl
      simp [hs p e outer frames] at control
    simp [completions, abandons, other]
  | abandon i e p outer panic frames control =>
    have other : i ≠ s := by
      rintro rfl
      simp [hs p e outer frames] at control
    simp [completions, abandons, other]
  | _ => simp [completions, abandons, Thread.notice]

end Turn

theorem Grounded.execute_of_mem {place : Nat → StreamCategory} {frames : List Frame}
    {spans : List Span} (h : Grounded place frames spans) {s e : Nat} {p : DrainPoint}
    (mem : .drain s p e ∈ frames) : p = .execute := by
  induction h with
  | nil => cases mem
  | calm hf below ih =>
    obtain rfl | mem := List.mem_cons.1 mem
    · exact hf.elim
    · exact ih mem
  | helper below ih =>
    obtain same | mem := List.mem_cons.1 mem
    · cases same
    · exact ih mem
  | run below ih =>
    obtain same | mem := List.mem_cons.1 mem
    · cases same
    · obtain same | mem := List.mem_cons.1 mem
      · cases same
        rfl
      · exact ih mem

/-- A worker that is alone: all it runs it runs above the one drain it has begun with. -/
inductive Bottom (s : Nat) (x : Solo) : Prop
  | running (inner : List Frame) (p : DrainPoint) (e : Nat)
      (frames : x.thread.frames = inner ++ [.drain s p e]) (completed : completions s x.seen = e)
      (abandoned : abandons s x.seen = 0)
  | returned (e : Nat) (frames : x.thread.frames = [])
      (control : x.thread.control = .reply (.count e)) (completed : completions s x.seen = e)
      (abandoned : abandons s x.seen = 0) (empty : x.world.queueAt s = [])
  | unwound (panic : Panic) (frames : x.thread.frames = [])
      (control : x.thread.control = .unwind panic) (abandoned : abandons s x.seen = 1)

namespace Bottom

variable {s : Nat} {x : Solo}

/-- Above the drain that a worker has begun with, no other drain of the stream has an instruction. -/
theorem run_of_nested (guarded : Machine.Guarded x.seen ⟨x.world, [x.thread]⟩) {inner : List Frame}
    {p p' : DrainPoint} {e e' : Nat}
    (frames : x.thread.frames = .drain s p' e' :: (inner ++ [.drain s p e])) :
    x.thread.control = .run := by
  by_contra control
  have shaped := guarded.shaped x.thread (by simp)
  obtain ⟨rfl, below⟩ := shaped.below_ending frames control
  obtain rfl := below.execute_of_mem (p := p) (e := e) (s := s) (by simp)
  have held := guarded.held s
  have := (x.world.executingAt s).toNat_le
  simp [countFrames, frames, Frame.holds] at held
  omega

theorem next_above {r : Step} (h : Turn x.world x.thread r)
    (guarded : Machine.Guarded x.seen ⟨x.world, [x.thread]⟩) {frame : Frame} {inner : List Frame}
    {p : DrainPoint} {e : Nat} (frames : x.thread.frames = frame :: (inner ++ [.drain s p e]))
    (completed : completions s x.seen = e) (abandoned : abandons s x.seen = 0) :
    Bottom s ⟨x.world.after r.deed, r.thread, x.seen ++ r.seen⟩ := by
  obtain ⟨added, stack⟩ := h.above frames
  obtain ⟨no_end, no_panic⟩ := h.quiet (s := s) fun p' e' outer frames' => by
    rw [frames] at frames'
    cases frames'
    exact run_of_nested guarded frames
  refine .running (added ++ inner) p e (by simp [stack]) ?_ ?_
  · simp [completed, no_end]
  · simp [abandoned, no_panic]

theorem next_bottom {r : Step} (h : Turn x.world x.thread r)
    (guarded : Machine.Guarded x.seen ⟨x.world, [x.thread]⟩) {p : DrainPoint} {e : Nat}
    (frames : x.thread.frames = [.drain s p e]) (completed : completions s x.seen = e)
    (abandoned : abandons s x.seen = 0) :
    Bottom s ⟨x.world.after r.deed, r.thread, x.seen ++ r.seen⟩ := by
  cases h with
  | calm frame outer added frames' calm | drain frame outer added i frames' calm
  | push frame outer i m reply n frames' calm | enlist frame outer c frames' calm =>
    rw [frames] at frames'
    cases frames'
    exact calm.elim
  | dismiss x saved outer frames' | proceed i i' phases phases' outer added seen frames'
  | finish x i phases outer seen frames' =>
    rw [frames] at frames'
    cases frames'
  | busy i e' outer frames' run held =>
    rw [frames] at frames'
    cases frames'
    -- Nobody else can hold the guard, so there is no such stream.
    have free := guarded.held s
    have none : (Frame.drain s .enter e).holds s = false := by simp [Frame.holds]
    simp only [countFrames, List.flatMap_singleton, frames, List.countP_singleton, none] at free
    have empty : x.world.queueAt s = [] := by
      cases found : x.world.streams[s]? <;>
        simp_all [World.queueAt, World.executingAt]
    exact .returned e rfl rfl (by simpa [completions] using completed)
      (by simpa [abandons] using abandoned) empty
  | rest i e' outer frames' run empty =>
    rw [frames] at frames'
    cases frames'
    exact .returned e rfl rfl (by simpa [completions] using completed)
      (by simpa [abandons] using abandoned) empty
  | seize i e' outer frames' | dry i e' q outer frames' | yield i e' outer frames'
  | again i e' outer frames' =>
    rw [frames] at frames'
    cases frames'
    exact .running [] _ e rfl (by simpa using completed) (by simpa using abandoned)
  | start i e' q outer m queue frames' =>
    rw [frames] at frames'
    cases frames'
    exact .running [_] _ e rfl (by simpa [completions] using completed)
      (by simpa [abandons] using abandoned)
  | complete i e' q outer reply frames' =>
    rw [frames] at frames'
    cases frames'
    exact .running [] _ (e + 1) rfl (by simp [completed]; simp [completions])
      (by simp [abandoned]; simp [abandons])
  | abandon i e' q outer panic frames' =>
    rw [frames] at frames'
    cases frames'
    exact .unwound panic rfl rfl (by simp [abandoned]; simp [abandons])

theorem next {r : Step} (h : Bottom s x) (turn : Turn x.world x.thread r)
    (guarded : Machine.Guarded x.seen ⟨x.world, [x.thread]⟩) :
    Bottom s ⟨x.world.after r.deed, r.thread, x.seen ++ r.seen⟩ := by
  cases h with
  | returned e frames | unwound panic frames => exact (turn.frames_ne_nil frames).elim
  | running inner p e frames completed abandoned =>
    cases inner with
    | nil => exact next_bottom turn guarded frames completed abandoned
    | cons frame inner => exact next_above turn guarded frames completed abandoned

end Bottom

/-- The counter of a stream counts what has completed on it. -/
theorem Turn.completedAt {w : World} {t : Thread} {r : Step} (h : Turn w t r) {s : Nat}
    (known : s < w.streams.length) :
    (w.after r.deed).completedAt s = w.completedAt s + completions s r.seen := by
  have other (hd : ∀ i, r.deed ≠ .complete i) (none : completions s r.seen = 0) :
      (w.after r.deed).completedAt s = w.completedAt s + completions s r.seen := by
    rw [World.completedAt_after hd, none, Nat.add_zero]
  cases h with
  | complete i e p outer reply frames control =>
    by_cases hi : i = s
    · subst hi
      rw [World.completedAt_complete known]
      simp [completions]
    · have apart (w : World) : (w.after (.complete i)).completedAt s = w.completedAt s := by
        rw [World.after, World.completedAt, World.getElem?_updateStream, if_neg hi]
        rfl
      simp [apart, completions, hi]
  | calm _ _ _ _ _ deed _ _ _ _ seen =>
    refine other (fun i hd => ?_) (completions_calm seen s).1
    rw [hd] at deed
    exact deed
  | proceed _ _ _ _ _ _ _ _ _ _ _ seen | finish _ _ _ _ _ _ _ _ _ seen =>
    exact other (by simp) (completions_calm seen s).1
  | _ => exact other (by simp) (by simp [completions, Thread.notice])

namespace World

variable {w : World} {s : Nat}

theorem alone_tidy (tidy : w.Tidy) (n : Nat) : (w.alone s n).world.Tidy := by
  induction n with
  | zero => exact tidy
  | succ n ih =>
    rw [alone, Solo.next]
    split
    · exact ih
    · exact ih.after _

/-- A worker that is alone is a machine of one thread. -/
theorem stepAt?_alone (tidy : w.Tidy) (single : .workers ∉ w.touchedBy s) {n : Nat} {r : Step}
    (step : (w.alone s n).step? = some r) :
    Machine.stepAt? ⟨(w.alone s n).world, [(w.alone s n).thread]⟩ 0 =
      some (⟨(w.alone s (n + 1)).world, [(w.alone s (n + 1)).thread]⟩, r.seen) := by
  have alone : .workers ∉ (w.alone s n).thread.reads (w.alone s n).world :=
    fun mem => single (w.reads_subset s n mem)
  have none := Thread.spawned_eq_nil (alone_tidy tidy n) alone step
  have same (fresh : Nat) (outcomes : Nat → Option (Except Panic Reply)) :
      (w.alone s n).thread.step? (w.alone s n).world fresh outcomes = some r :=
    (Thread.step?_congr alone _ _ _ _).trans step
  rw [World.alone, Solo.next_of_step? step]
  simp [Machine.stepAt?, same, none]

theorem alone_reaches (tidy : w.Tidy) (single : .workers ∉ w.touchedBy s) (n : Nat) :
    Machine.Reaches ⟨w, [.worker s]⟩ (w.alone s n).seen
      ⟨(w.alone s n).world, [(w.alone s n).thread]⟩ := by
  induction n with
  | zero => exact .refl
  | succ n ih =>
    cases step : (w.alone s n).step? with
    | none => rw [alone_eq_of_step?_eq_none step 1]; exact ih
    | some r =>
      have last := stepAt?_alone tidy single step
      have seen : (w.alone s (n + 1)).seen = (w.alone s n).seen ++ r.seen := by
        rw [alone, Solo.next_of_step? step]
      rw [seen]
      exact ih.move (.step 0 last)

theorem alone_guarded (idle : w.Idle) (single : .workers ∉ w.touchedBy s) (n : Nat) :
    Machine.Guarded (w.alone s n).seen ⟨(w.alone s n).world, [(w.alone s n).thread]⟩ := by
  have start : Machine.Guarded [] ⟨w, [.worker s]⟩ :=
    (Machine.Guarded.init w idle.free).of_same
      (by simpa using Thread.Shaped.worker s) (fun _ => rfl)
      (by simp [countFrames, Thread.worker, Frame.holds])
      (by simp [countFrames, Thread.worker, Frame.executes]) (fun _ => rfl)
  exact (alone_reaches idle.tidy single n).guarded start

theorem alone_bottom (idle : w.Idle) (single : .workers ∉ w.touchedBy s) (n : Nat) :
    Bottom s (w.alone s n) := by
  induction n with
  | zero => exact .running [] .enter 0 rfl rfl rfl
  | succ n ih =>
    cases step : (w.alone s n).step? with
    | none => rw [alone_eq_of_step?_eq_none step 1]; exact ih
    | some r =>
      rw [alone, Solo.next_of_step? step]
      exact ih.next (Thread.turn_of_step? step) (alone_guarded idle single n)

theorem alone_completedAt (known : s < w.streams.length) (n : Nat) :
    (w.alone s n).world.completedAt s = w.completedAt s + completions s (w.alone s n).seen ∧
      (w.alone s n).world.streams.length = w.streams.length := by
  induction n with
  | zero => exact ⟨rfl, rfl⟩
  | succ n ih =>
    rw [alone, Solo.next]
    split
    · exact ih
    next r step =>
      have turn := Thread.turn_of_step? step
      simp only [length_streams_after, ih.2, completions_append, and_true]
      rw [turn.completedAt (by rw [ih.2]; exact known), ih.1, Nat.add_assoc]

/-- Once a worker has ended, as many instructions have started as have completed or unwound. -/
theorem Finishes.length_started (idle : w.Idle) (single : .workers ∉ w.touchedBy s) {n : Nat}
    {v : Except Panic Reply} (h : w.Finishes s n v) :
    (startedOn s (w.alone s n).seen).length =
      completions s (w.alone s n).seen + abandons s (w.alone s n).seen := by
  have guarded := alone_guarded idle single n
  have none : (w.alone s n).thread.frames = [] := Thread.frames_of_outcome? h.outcome
  have last := guarded.last s
  have count := count_turns (guarded.turns s)
  simp only [countFrames, List.flatMap_singleton, none, List.countP_nil] at last
  rw [← last, count_true_turns, count_false_turns] at count
  simpa using count

/-- A worker that has ended has left all instructions and holds no guard. -/
theorem Finishes.spans_and_guards (idle : w.Idle) (single : .workers ∉ w.touchedBy s) {n : Nat}
    {v : Except Panic Reply} (h : w.Finishes s n v) :
    (w.alone s n).thread.spans = [] ∧ ∀ i, (w.alone s n).world.executingAt i = false := by
  have guarded := alone_guarded idle single n
  have none : (w.alone s n).thread.frames = [] := Thread.frames_of_outcome? h.outcome
  constructor
  · cases guarded.shaped _ (List.mem_singleton_self _) with
    | host stack =>
      rw [none] at stack
      generalize (w.alone s n).thread.spans = spans at stack
      cases stack
      rfl
    | loop i e p outer frames | ending i e span outer spans frames => simp [none] at frames
  · intro i
    have held := guarded.held i
    simpa [countFrames, none] using held.symm

theorem ended_of_frames (idle : w.Idle) (single : .workers ∉ w.touchedBy s) {n : Nat}
    (none : (w.alone s n).thread.frames = []) :
    ∃ v, (w.alone s n).thread.outcome? = some v := by
  cases alone_bottom idle single n with
  | running inner p e frames => simp [none] at frames
  | returned e frames control => exact ⟨.ok (.count e), by rw [Thread.outcome?, frames, control]⟩
  | unwound panic frames control => exact ⟨.error panic, by rw [Thread.outcome?, frames, control]⟩

end World

/-- What has become of a stream that was drained: all its messages have run, or those up to the
first that panicked, and then the others are still there. -/
inductive Drained (s : Nat) (w w' : World) (seen : List Occurrence) : Except Panic Reply → Prop
  | emptied (started : startedOn s seen = w.queueAt s ++ acceptedOn s seen)
      (queue : w'.queueAt s = [])
      (completed : w'.completedAt s = w.completedAt s + (startedOn s seen).length)
      (calm : abandons s seen = 0) : Drained s w w' seen (.ok (.count (startedOn s seen).length))
  | broken (panic : Panic) (firsts : List Message) (last : Message)
      (started : startedOn s seen = firsts ++ [last])
      (pending : w.queueAt s ++ acceptedOn s seen = firsts ++ last :: w'.queueAt s)
      (completed : w'.completedAt s = w.completedAt s + firsts.length)
      (unwound : abandons s seen = 1) : Drained s w w' seen (.error panic)

theorem World.Finishes.drained {w : World} {s n : Nat} {v : Except Panic Reply} (idle : w.Idle)
    (single : .workers ∉ w.touchedBy s) (known : s < w.streams.length) (h : w.Finishes s n v) :
    Drained s w (w.alone s n).world (w.alone s n).seen v := by
  have ledger := (alone_reaches idle.tidy single n).ledger s
  have length := h.length_started idle single
  have counter := (alone_completedAt known n).1
  have outcome := h.outcome
  cases alone_bottom idle single n with
  | running inner p e frames =>
    have none := Thread.frames_of_outcome? outcome
    simp [frames] at none
  | returned e frames control completed abandoned empty =>
    have verdict : v = .ok (.count e) := by
      rw [Thread.outcome?, frames, control] at outcome
      exact (Option.some.inj outcome).symm
    rw [completed, abandoned, Nat.add_zero] at length
    rw [empty, List.append_nil] at ledger
    rw [verdict, ← length]
    exact .emptied ledger empty (by rw [counter, completed, length]) abandoned
  | unwound panic frames control abandoned =>
    have verdict : v = .error panic := by
      rw [Thread.outcome?, frames, control] at outcome
      exact (Option.some.inj outcome).symm
    rw [abandoned] at length
    have started : startedOn s (w.alone s n).seen ≠ [] := by
      rintro none
      simp [none] at length
    obtain ⟨firsts, last, split⟩ : ∃ firsts last, startedOn s (w.alone s n).seen = firsts ++ [last] :=
      ⟨_, _, (List.dropLast_append_getLast started).symm⟩
    rw [split] at length ledger
    rw [verdict]
    refine .broken panic firsts last split ?_ ?_ abandoned
    · rw [← ledger]
      simp
    · rw [counter]
      simp at length
      omega

theorem Drained.congr {s : Nat} {w w' w'' : World} {seen : List Occurrence}
    {v : Except Panic Reply} (h : Drained s w w' seen v)
    (same : w''.streams[s]? = w'.streams[s]?) : Drained s w w'' seen v := by
  have queue : w''.queueAt s = w'.queueAt s := by rw [World.queueAt, same, World.queueAt]
  have counter : w''.completedAt s = w'.completedAt s := by
    rw [World.completedAt, same, World.completedAt]
  cases h with
  | emptied started empty completed calm =>
    exact .emptied started (queue.trans empty) (counter.trans completed) calm
  | broken panic firsts last started pending completed unwound =>
    exact .broken panic firsts last started (by rw [queue, pending]) (counter.trans completed) unwound

theorem Drained.count {s : Nat} {w w' : World} {seen : List Occurrence} {reply : Reply}
    (h : Drained s w w' seen (.ok reply)) : reply = .count (startedOn s seen).length := by
  cases h
  rfl

/-- Without a panic the counts add up to all instructions that have run. -/
theorem joinOutcomes_drained {w w' : World} {k : Nat} {seen : Nat → List Occurrence}
    {verdict : Nat → Except Panic Reply} (drained : ∀ s < k, Drained s w w' (seen s) (verdict s))
    (calm : ∀ s < k, ∃ count, verdict s = .ok count) :
    joinOutcomes ((List.range k).map verdict) =
      .ok (∑ s ∈ Finset.range k, (startedOn s (seen s)).length) := by
  have replies : (List.range k).map verdict =
      (List.range k).map fun s => .ok (.count (startedOn s (seen s)).length) := by
    refine List.map_congr_left fun s hs => ?_
    obtain ⟨count, ok⟩ := calm s (List.mem_range.1 hs)
    have drained := drained s (List.mem_range.1 hs)
    rw [ok] at drained ⊢
    rw [drained.count]
  rw [replies]
  exact joinOutcomes_replies _ _

end StreamMachine
