import StreamMachine.Proofs.Outcomes
import StreamMachine.Proofs.Parallel
import StreamMachine.Proofs.Verdict

/-! Streams one after another. A drain of all streams on one thread runs the first worker to its
end, then the next one, and stops with the first that unwinds; the workers behind it never start. -/
namespace StreamMachine

variable {f : Equiv.Perm Nat} {w : World}

/-- A thread that is about to drain the streams from a position on. -/
def Thread.visiting (k p total : Nat) : Thread :=
  { frames := [.schedule ((List.range k).drop p) total] }

/-- What workers have shown, one after the other. -/
def shownUpTo (f : Equiv.Perm Nat) (w : World) (n : Nat → Nat) (p : Nat) : List Occurrence :=
  (List.range p).flatMap fun j =>
    (w.alone (f.symm j) (n (f.symm j))).seen.map (Occurrence.moved f)

theorem shownUpTo_succ (n : Nat → Nat) (p : Nat) : shownUpTo f w n (p + 1) =
    shownUpTo f w n p ++ (w.alone (f.symm p) (n (f.symm p))).seen.map (Occurrence.moved f) := by
  simp [shownUpTo, List.range_succ]

theorem shownUpTo_update {n : Nat → Nat} {p q : Nat} (hq : p ≤ q) (v : Nat) :
    shownUpTo f w (Function.update n (f.symm q) v) p = shownUpTo f w n p := by
  refine List.flatMap_congr fun j hj => ?_
  have other : f.symm j ≠ f.symm q := fun e => by
    have := f.symm.injective e
    have := List.mem_range.1 hj
    omega
  rw [Function.update_of_ne other]

/-- Steps for the streams before a position, with one to go there and one to come back. -/
def spent (f : Equiv.Perm Nat) (n : Nat → Nat) (p : Nat) : Nat :=
  ∑ j ∈ Finset.range p, (n (f.symm j) + 2)

theorem spent_update {n : Nat → Nat} {p q : Nat} (hq : p ≤ q) (v : Nat) :
    spent f (Function.update n (f.symm q) v) p = spent f n p := by
  refine Finset.sum_congr rfl fun j hj => ?_
  have other : f.symm j ≠ f.symm q := fun e => by
    have := f.symm.injective e
    have := Finset.mem_range.1 hj
    omega
  rw [Function.update_of_ne other]

theorem spent_succ (n : Nat → Nat) (p : Nat) :
    spent f n (p + 1) = spent f n p + (n (f.symm p) + 2) :=
  Finset.sum_range_succ _ p

/-- A world in which the streams before a position have been drained, and of the others only the one
at the position has been begun, if any. -/
structure Passed (f : Equiv.Perm Nat) (w : World) (k p : Nat) (n : Nat → Nat) (total : Nat)
    (w' : World) : Prop where
  world : w.Composed f n w'
  within : p ≤ k
  finishes : ∀ j < p, w.Finishes (f.symm j) (n (f.symm j)) (w.verdict (f.symm j))
  total : joinOutcomes ((List.range p).map fun j => w.verdict (f.symm j)) = .ok total
  fresh : ∀ j, p < j → n (f.symm j) = 0

theorem Passed.advance {k p total : Nat} {n : Nat → Nat} {w' : World}
    (h : Passed f w k p n total w') (separate : w.Separate) {r : Step}
    (step : (w.alone (f.symm p) (n (f.symm p))).step? = some r) :
    Passed f w k p (Function.update n (f.symm p) (n (f.symm p) + 1)) total
      (w'.after (r.deed.moved f)) where
  world := h.world.advance separate step
  within := h.within
  finishes j hj := by
    have other : f.symm j ≠ f.symm p := fun e => by
      have := f.symm.injective e
      omega
    rw [Function.update_of_ne other]
    exact h.finishes j hj
  total := h.total
  fresh j hj := by
    have other : f.symm j ≠ f.symm p := fun e => by
      have := f.symm.injective e
      omega
    rw [Function.update_of_ne other]
    exact h.fresh j hj

/-- From the end of one stream to the point before the next. -/
theorem Passed.succ {k p total : Nat} {n : Nat → Nat} {w' : World} {reply : Reply}
    (h : Passed f w k p n total w') (less : p < k)
    (finishes : w.Finishes (f.symm p) (n (f.symm p)) (.ok reply)) :
    Passed f w k (p + 1) n (total + reply.toCount) w' where
  world := h.world
  within := less
  finishes j hj := by
    obtain earlier | rfl := Nat.lt_succ_iff_lt_or_eq.1 hj
    · exact h.finishes j earlier
    · rw [← finishes.eq_verdict]
      exact finishes
  total := by
    rw [List.range_succ, List.map_append, List.map_singleton, ← finishes.eq_verdict]
    exact joinOutcomes_append_ok h.total reply
  fresh j hj := h.fresh j (by omega)

/-- A drain of all streams that has come to its end behind a number of streams: all of them, or those
up to the first that unwinds. -/
structure World.Visited (f : Equiv.Perm Nat) (w : World) (k : Nat) (n : Nat → Nat) (q : Nat)
    (trace : List (Nat × List Occurrence)) (w' : World) (outcome : Except Panic Reply) : Prop where
  world : w.Composed f n w'
  within : q ≤ k
  finishes : ∀ j < q, w.Finishes (f.symm j) (n (f.symm j)) (w.verdict (f.symm j))
  fresh : ∀ j, q ≤ j → j < k → n (f.symm j) = 0
  shown : shownBy 0 trace = shownUpTo f w n q
  outcome : outcome = (joinOutcomes ((List.range k).map fun j => w.verdict (f.symm j))).map .count
  last : (q = k ∧ ∀ j < k, ∃ reply, w.verdict (f.symm j) = .ok reply) ∨
    ∃ p panic, q = p + 1 ∧ FirstToBreak (fun j => w.verdict (f.symm j)) p panic

/-- A drain of all streams one after another: about to start, between two streams, inside one, or at
its end. -/
inductive Sequential (f : Equiv.Perm Nat) (w w' : World) (k : Nat) :
    List (Nat × List Occurrence) → Machine → Prop
  | start : Sequential f w w' k [] ⟨w', [.ofCommand .schedule]⟩
  | between {trace : List (Nat × List Occurrence)} {m : Machine} (p total : Nat) (n : Nat → Nat)
      (passed : Passed f w k p n total m.world) (fresh : n (f.symm p) = 0)
      (threads : m.threads = [.visiting k p total]) (shown : shownBy 0 trace = shownUpTo f w n p)
      (steps : trace.length = 1 + spent f n p) : Sequential f w w' k trace m
  | inside {trace : List (Nat × List Occurrence)} {m : Machine} (p total : Nat) (n : Nat → Nat)
      (passed : Passed f w k p n total m.world) (less : p < k)
      (live : ∀ i < n (f.symm p), (w.alone (f.symm p) i).step?.isSome)
      (threads : m.threads = [(w.alone (f.symm p) (n (f.symm p))).thread.onto f
        [.schedule ((List.range k).drop (p + 1)) total]])
      (shown : shownBy 0 trace = shownUpTo f w n (p + 1))
      (steps : trace.length = 2 + spent f n p + n (f.symm p)) : Sequential f w w' k trace m
  | returned {trace : List (Nat × List Occurrence)} {m : Machine} (total : Nat) (n : Nat → Nat)
      (x : Thread) (passed : Passed f w k k n total m.world) (threads : m.threads = [x])
      (outcome : x.outcome? = some (.ok (.count total))) (shown : shownBy 0 trace = shownUpTo f w n k)
      (steps : trace.length = 2 + spent f n k) : Sequential f w w' k trace m
  | unwound {trace : List (Nat × List Occurrence)} {m : Machine} (p total : Nat) (n : Nat → Nat)
      (panic : Panic) (x : Thread) (passed : Passed f w k p n total m.world) (less : p < k)
      (finishes : w.Finishes (f.symm p) (n (f.symm p)) (.error panic)) (threads : m.threads = [x])
      (outcome : x.outcome? = some (.error panic)) (shown : shownBy 0 trace = shownUpTo f w n (p + 1))
      (steps : trace.length = 3 + spent f n p + n (f.symm p)) : Sequential f w w' k trace m

namespace Sequential

variable {w' : World} {k : Nat} {trace : List (Nat × List Occurrence)} {m m' : Machine}
  {seen : List Occurrence}

theorem eq_zero_of_stepAt? {x : Thread} (threads : m.threads = [x]) {i : Nat}
    (step : m.stepAt? i = some (m', seen)) : i = 0 := by
  cases i with
  | zero => rfl
  | succ i => simp [Machine.stepAt?, threads] at step

theorem stepAt?_eq_none_of_outcome? {x : Thread} {v : Except Panic Reply}
    (threads : m.threads = [x]) (outcome : x.outcome? = some v) (i : Nat) : m.stepAt? i = none := by
  cases i with
  | zero =>
    simp [Machine.stepAt?, threads, Thread.step?_eq_none (Thread.frames_of_outcome? outcome)]
  | succ i => simp [Machine.stepAt?, threads]

theorem stepAt?_start (w' : World) : Machine.stepAt? ⟨w', [.ofCommand .schedule]⟩ 0 =
    some (⟨w', [.visiting w'.streams.length 0 0]⟩, []) := by
  simp [Machine.stepAt?, Thread.ofCommand, Thread.step?, Thread.stepFrame?, Thread.stepCommand?,
    Thread.goto, Thread.visiting]

/-- Between two streams the next one is begun, if there is any left. -/
theorem stepAt?_between {p total : Nat} (threads : m.threads = [.visiting k p total]) :
    m.stepAt? 0 = if p < k then some (⟨m.world,
        [(Thread.worker p).onto (Equiv.refl Nat) [.schedule ((List.range k).drop (p + 1)) total]]⟩, [])
      else some (⟨m.world, [{ frames := [], control := .reply (.count total) }]⟩, []) := by
  split
  next less =>
    simp [Machine.stepAt?, threads, Thread.visiting, Thread.step?, drop_range less,
      Thread.stepFrame?, Thread.goto, Thread.onto, Thread.worker, Frame.moved]
  next all =>
    have none : (List.range k).drop p = [] := by simpa using Nat.le_of_not_lt all
    simp [Machine.stepAt?, threads, Thread.visiting, Thread.step?, none, Thread.stepFrame?,
      Thread.give]

/-- Inside a stream its worker steps as it does alone. -/
theorem stepAt?_inside {s : Nat} {n : Nat → Nat} {outer : List Frame}
    (world : w.Composed f n m.world) (separate : w.Separate)
    (live : (w.alone s (n s)).thread.frames ≠ [])
    (threads : m.threads = [(w.alone s (n s)).thread.onto f outer]) :
    m.stepAt? 0 = (w.alone s (n s)).step?.map fun r =>
      (⟨m.world.after (r.deed.moved f), [r.thread.onto f outer]⟩,
        r.seen.map (Occurrence.moved f)) := by
  have step (fresh : Nat) (outcomes : Nat → Option (Except Panic Reply)) :=
    world.step? separate live outer fresh outcomes
  cases next : (w.alone s (n s)).step? with
  | none => simp [Machine.stepAt?, threads, step, next]
  | some r => simp [Machine.stepAt?, threads, step, next, Step.onto]

/-- Once its worker has ended, the verdict is handed on. -/
theorem stepAt?_handed {t : Thread} {v : Except Panic Reply} (outcome : t.outcome? = some v)
    (outside : t.spans = []) {left : List Nat} {total : Nat}
    (threads : m.threads = [t.onto f [.schedule left total]]) :
    m.stepAt? 0 = some (⟨m.world, [match v with
      | .ok reply => { frames := [.schedule left (total + reply.toCount)] }
      | .error panic => { frames := [], control := .unwind panic }]⟩, []) := by
  obtain ⟨frames, control, spans⟩ := t
  obtain rfl : frames = [] := Thread.frames_of_outcome? outcome
  obtain rfl : spans = [] := outside
  cases control with
  | run => cases outcome
  | reply reply =>
    cases outcome
    simp [Machine.stepAt?, threads, Thread.onto, Thread.step?, Thread.stepReply, Thread.goto]
  | unwind panic =>
    cases outcome
    simp [Machine.stepAt?, threads, Thread.onto, Thread.step?, Thread.stepUnwind, Thread.fail]

theorem step (h : Sequential f w w' k trace m) (idle : w.Idle) (separate : w.Separate)
    (start : w.Composed f (fun _ => 0) w') (count : w'.streams.length = k) {i : Nat}
    (step : m.stepAt? i = some (m', seen)) :
    Sequential f w w' k (trace ++ [(i, seen)]) m' := by
  cases h with
  | start =>
    obtain rfl := eq_zero_of_stepAt? rfl step
    rw [stepAt?_start, count, Option.some.injEq] at step
    cases step
    exact .between 0 0 (fun _ => 0) ⟨start, by omega, by simp, rfl, by simp⟩ rfl rfl rfl rfl
  | between p total n passed fresh threads shown steps =>
    obtain rfl := eq_zero_of_stepAt? threads step
    rw [stepAt?_between threads] at step
    split at step
    next less =>
      cases step
      refine .inside p total n passed less (by simp [fresh]) ?_ ?_ ?_
      · simp [fresh, World.alone, Thread.onto, Thread.worker, Frame.moved]
      · rw [shownBy_step, shown, shownUpTo_succ, fresh]
        rfl
      · simp [steps, fresh]
        omega
    next all =>
      cases step
      obtain rfl : p = k := by have := passed.within; omega
      exact .returned total n _ passed rfl rfl (by simp [shownBy_step, shown]) (by simp [steps]; omega)
  | inside p total n passed less live threads shown steps =>
    obtain rfl := eq_zero_of_stepAt? threads step
    by_cases more : (w.alone (f.symm p) (n (f.symm p))).thread.frames ≠ []
    · rw [stepAt?_inside passed.world separate more threads, Option.map_eq_some_iff] at step
      obtain ⟨r, taken, same⟩ := step
      cases same
      have next := Solo.next_of_step? taken
      refine .inside p total _ (passed.advance separate taken) less ?_ ?_ ?_ ?_
      · intro i hi
        rw [Function.update_self] at hi
        obtain earlier | rfl := Nat.lt_succ_iff_lt_or_eq.1 hi
        · exact live i earlier
        · rw [taken]; rfl
      · rw [Function.update_self, World.alone, next]
      · rw [shownBy_step, shown, shownUpTo_succ, shownUpTo_succ, shownUpTo_update le_rfl,
          Function.update_self, World.alone, next]
        simp
      · rw [spent_update le_rfl, Function.update_self, List.length_append, steps]
        simp
        omega
    · obtain ⟨v, outcome⟩ := World.ended_of_frames idle (separate.single _) (not_not.1 more)
      have finishes : w.Finishes (f.symm p) (n (f.symm p)) v := ⟨live, outcome⟩
      have outside := (finishes.spans_and_guards idle (separate.single _)).1
      rw [stepAt?_handed outcome outside threads] at step
      cases v with
      | ok reply =>
        cases step
        refine .between (p + 1) _ n (passed.succ less finishes) (passed.fresh _ (by omega)) rfl ?_ ?_
        · rw [shownBy_step, shown]
          simp
        · rw [List.length_append, steps, spent_succ, List.length_singleton]
          omega
      | error panic =>
        cases step
        refine .unwound p total n panic _ passed less finishes rfl rfl ?_ ?_
        · rw [shownBy_step, shown]
          simp
        · simp [steps]
          omega
  | returned total n x passed threads outcome =>
    rw [stepAt?_eq_none_of_outcome? threads outcome] at step
    cases step
  | unwound p total n panic x passed less finishes threads outcome =>
    rw [stepAt?_eq_none_of_outcome? threads outcome] at step
    cases step

theorem of_interleaves (idle : w.Idle) (separate : w.Separate) (start : w.Composed f (fun _ => 0) w')
    (count : w'.streams.length = k) (run : Machine.Interleaves ⟨w', [.ofCommand .schedule]⟩ trace m) :
    Sequential f w w' k trace m := by
  induction run with
  | refl => exact .start
  | step run i last ih => exact ih.step idle separate start count last

/-- A drain that has an outcome has drained all streams, or those up to the first that unwinds. -/
theorem of_outcome? (h : Sequential f w w' k trace m) {outcome : Except Panic Reply}
    (ended : m.outcome? 0 = some outcome) :
    (∀ t ∈ m.threads, t.frames = []) ∧ ∃ n q, w.Visited f k n q trace m.world outcome := by
  have unended {t : Thread} (threads : m.threads = [t]) (frames : t.frames ≠ []) : False := by
    rw [Machine.outcome?, threads] at ended
    exact frames (Thread.frames_of_outcome? ended)
  cases h with
  | start => cases ended
  | between p total n passed fresh threads => exact (unended threads (by simp [Thread.visiting])).elim
  | inside p total n passed less live threads =>
    exact (unended threads (by simp [Thread.onto])).elim
  | returned total n x passed threads outcome' shown =>
    rw [Machine.outcome?, threads] at ended
    obtain rfl := Option.some.inj (ended.symm.trans outcome')
    have stopped : ∀ t ∈ m.threads, t.frames = [] := by
      simpa [threads] using Thread.frames_of_outcome? outcome'
    refine ⟨stopped, n, k, passed.world, le_rfl, passed.finishes, fun j hj hk => by omega, shown, ?_,
      .inl ⟨rfl, reply_of_joinOutcomes passed.total⟩⟩
    rw [passed.total]
    rfl
  | unwound p total n panic x passed less finishes threads outcome' shown =>
    rw [Machine.outcome?, threads] at ended
    obtain rfl := Option.some.inj (ended.symm.trans outcome')
    have first : FirstToBreak (fun j => w.verdict (f.symm j)) p panic :=
      ⟨reply_of_joinOutcomes passed.total, finishes.eq_verdict.symm⟩
    have stopped : ∀ t ∈ m.threads, t.frames = [] := by
      simpa [threads] using Thread.frames_of_outcome? outcome'
    refine ⟨stopped, n, p + 1, passed.world, less, fun j hj => ?_, fun j hj _ => passed.fresh j hj, shown, ?_,
      .inr ⟨p, panic, rfl, first⟩⟩
    · obtain earlier | rfl := Nat.lt_succ_iff_lt_or_eq.1 hj
      · exact passed.finishes j earlier
      · exact finishes.eq_verdict ▸ finishes
    · rw [joinOutcomes_first less first]
      rfl

/-- If each worker ends alone, so does the drain of one stream after another. -/
theorem terminates (idle : w.Idle) (separate : w.Separate) (start : w.Composed f (fun _ => 0) w')
    (count : w'.streams.length = k) {N : Nat → Nat}
    (finishes : ∀ j < k, w.Finishes (f.symm j) (N (f.symm j)) (w.verdict (f.symm j))) :
    Machine.Terminates ⟨w', [.ofCommand .schedule]⟩ := by
  refine ⟨3 + spent f N k, fun trace m run => ?_⟩
  have within {n : Nat → Nat} {p : Nat} (hp : p ≤ k)
      (before : ∀ j < p, w.Finishes (f.symm j) (n (f.symm j)) (w.verdict (f.symm j))) :
      spent f n p = spent f N p := by
    refine Finset.sum_congr rfl fun j hj => ?_
    have hj := Finset.mem_range.1 hj
    rw [((finishes j (by omega)).unique (before j hj)).1]
  have grows {p q : Nat} (hp : p ≤ q) : spent f N p ≤ spent f N q :=
    Finset.sum_le_sum_of_subset (Finset.range_mono hp)
  cases of_interleaves idle separate start count run with
  | start => exact ⟨by simp, .inr ⟨0, by rw [stepAt?_start]; rfl⟩⟩
  | between p total n passed fresh threads shown steps =>
    have := within passed.within passed.finishes
    have := grows passed.within
    refine ⟨by omega, .inr ⟨0, ?_⟩⟩
    rw [stepAt?_between threads]
    split <;> rfl
  | inside p total n passed less live threads shown steps =>
    have := within passed.within passed.finishes
    have := (finishes p less).le live
    have last := grows less
    rw [Nat.succ_eq_add_one, spent_succ] at last
    refine ⟨by omega, .inr ⟨0, ?_⟩⟩
    obtain ended | more := (finishes p less).progress live
    · have finishes := finishes p less
      rw [← ended] at finishes
      have outside := (finishes.spans_and_guards idle (separate.single _)).1
      rw [stepAt?_handed finishes.outcome outside threads]
      rfl
    · have frames : (w.alone (f.symm p) (n (f.symm p))).thread.frames ≠ [] := by
        intro none
        rw [Solo.step?, Thread.step?_eq_none none] at more
        cases more
      rw [stepAt?_inside passed.world separate frames threads, Option.isSome_map]
      exact more
  | returned total n x passed threads outcome shown steps =>
    have := within passed.within passed.finishes
    refine ⟨by omega, .inl ?_⟩
    rw [Machine.outcome?, threads]
    exact Option.isSome_iff_exists.2 ⟨_, outcome⟩
  | unwound p total n panic x passed less last threads outcome shown steps =>
    have := within passed.within passed.finishes
    have := ((finishes p less).unique last).1
    have sum := grows less
    rw [Nat.succ_eq_add_one, spent_succ] at sum
    refine ⟨by omega, .inl ?_⟩
    rw [Machine.outcome?, threads]
    exact Option.isSome_iff_exists.2 ⟨_, outcome⟩

end Sequential

end StreamMachine
