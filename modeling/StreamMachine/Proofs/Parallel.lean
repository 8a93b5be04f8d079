import Mathlib.Algebra.BigOperators.Group.Finset.Piecewise
import Mathlib.Algebra.Order.BigOperators.Group.Finset
import StreamMachine.Proofs.Alone
import StreamMachine.Proofs.Interleave

/-! Workers side by side. In every interleaving each worker is where it would be alone after as many
steps of its own, and the thread that has started them waits until all have ended. -/
namespace StreamMachine

variable {f : Equiv.Perm Nat} {w : World}

/-- The threads of the workers, each on its way. -/
def workers (f : Equiv.Perm Nat) (w : World) (n : Nat → Nat) (k : Nat) : List Thread :=
  (List.range k).map fun j => (w.alone (f.symm j) (n (f.symm j))).thread.onto f []

/-- A thread that waits for as many workers. -/
def Thread.joining (k : Nat) : Thread := { frames := [.join ((List.range k).map (1 + ·))] }

theorem Thread.worker_onto (s : Nat) : (Thread.worker s).onto f [] = Thread.worker (f s) := rfl

theorem Thread.outcome?_onto (t : Thread) : (t.onto f []).outcome? = t.outcome? := by
  obtain ⟨frames, control, spans⟩ := t
  cases frames with
  | nil => rfl
  | cons frame rest => rfl

theorem workers_zero (f : Equiv.Perm Nat) (w : World) (k : Nat) :
    workers f w (fun _ => 0) k = (List.range k).map Thread.worker := by
  refine List.map_congr_left fun j _ => ?_
  rw [World.alone, Thread.worker_onto, Equiv.apply_symm_apply]

theorem getElem?_workers {n : Nat → Nat} {k j : Nat} (hj : j < k) :
    (workers f w n k)[j]? = some ((w.alone (f.symm j) (n (f.symm j))).thread.onto f []) := by
  simp [workers, List.getElem?_range hj]

theorem set_workers {n : Nat → Nat} {k j : Nat} (hj : j < k) (v : Nat) :
    (workers f w n k).set j ((w.alone (f.symm j) v).thread.onto f []) =
      workers f w (Function.update n (f.symm j) v) k := by
  refine List.ext_getElem? fun i => ?_
  by_cases hi : i < k
  · rw [List.getElem?_set, getElem?_workers hi, getElem?_workers hi]
    by_cases same : j = i
    · subst same
      simp [workers, hj]
    · have other : f.symm i ≠ f.symm j := fun e => same (f.symm.injective e).symm
      rw [if_neg same, Function.update_of_ne other]
  · have left : ((workers f w n k).set j ((w.alone (f.symm j) v).thread.onto f [])).length ≤ i := by
      simpa [workers] using hi
    have right : (workers f w (Function.update n (f.symm j) v) k).length ≤ i := by
      simpa [workers] using hi
    rw [List.getElem?_eq_none left, List.getElem?_eq_none right]

/-- Steps that the workers have taken. -/
def taken (f : Equiv.Perm Nat) (n : Nat → Nat) (k : Nat) : Nat :=
  ∑ j ∈ Finset.range k, n (f.symm j)

theorem taken_update {n : Nat → Nat} {k j : Nat} (hj : j < k) :
    taken f (Function.update n (f.symm j) (n (f.symm j) + 1)) k = taken f n k + 1 := by
  have same : (fun i => Function.update n (f.symm j) (n (f.symm j) + 1) (f.symm i)) =
      Function.update (fun i => n (f.symm i)) j (n (f.symm j) + 1) :=
    Function.update_comp_eq_of_injective n f.symm.injective j _
  have mem : j ∈ Finset.range k := Finset.mem_range.2 hj
  rw [taken, same, Finset.sum_update_of_mem mem, taken, ← Finset.add_sum_erase _ _ mem,
    Finset.sdiff_singleton_eq_erase]
  omega

/-- A thread that has waited for workers with these verdicts. -/
def Thread.joined (verdicts : List (Except Panic Reply)) : Thread :=
  match joinOutcomes verdicts with
  | .ok total => { frames := [], control := .reply (.count total) }
  | .error panic => { frames := [], control := .unwind panic }

theorem Thread.outcome?_joined (verdicts : List (Except Panic Reply)) :
    (Thread.joined verdicts).outcome? = some ((joinOutcomes verdicts).map .count) := by
  rw [Thread.joined]
  cases joinOutcomes verdicts <;> rfl

theorem Thread.frames_joined (verdicts : List (Except Panic Reply)) :
    (Thread.joined verdicts).frames = [] :=
  Thread.frames_of_outcome? (Thread.outcome?_joined verdicts)

theorem mapM_eq_some_iff {α β : Type} {g : α → Option β} {l : List α} {ys : List β} :
    l.mapM g = some ys ↔ l.map g = ys.map some := by
  induction l generalizing ys with
  | nil => cases ys <;> simp
  | cons a l ih =>
    cases ys with
    | nil => simp [Option.bind_eq_some_iff]
    | cons y ys => simp [ih, Option.bind_eq_some_iff]

/-- A machine whose workers have come some way, beside a main thread that has taken `d` steps. -/
structure Spread (f : Equiv.Perm Nat) (w : World) (k : Nat) (n : Nat → Nat) (main : Thread) (d : Nat)
    (trace : List (Nat × List Occurrence)) (m : Machine) : Prop where
  world : w.Composed f n m.world
  threads : m.threads = main :: workers f w n k
  live : ∀ s, ∀ i < n s, (w.alone s i).step?.isSome
  shown : ∀ j < k, shownBy (1 + j) trace =
    (w.alone (f.symm j) (n (f.symm j))).seen.map (Occurrence.moved f)
  steps : trace.length = d + taken f n k

namespace Spread

variable {k j d : Nat} {n : Nat → Nat} {main : Thread} {trace : List (Nat × List Occurrence)}
  {m m' : Machine} {seen : List Occurrence}

theorem found_main (h : Spread f w k n main d trace m) : m.threads[0]? = some main := by
  rw [h.threads]
  rfl

theorem found (h : Spread f w k n main d trace m) (hj : j < k) : m.threads[1 + j]? =
    some ((w.alone (f.symm j) (n (f.symm j))).thread.onto f []) := by
  rw [h.threads, Nat.add_comm, List.getElem?_cons_succ, getElem?_workers hj]

/-- A worker steps among the others as it does alone. -/
theorem stepAt?_worker (h : Spread f w k n main d trace m) (separate : w.Separate) (hj : j < k) :
    m.stepAt? (1 + j) = (w.alone (f.symm j) (n (f.symm j))).step?.map fun r =>
      (⟨m.world.after (r.deed.moved f), m.threads.set (1 + j) (r.thread.onto f [])⟩,
        r.seen.map (Occurrence.moved f)) := by
  rw [Machine.stepAt?, h.found hj]
  by_cases live : (w.alone (f.symm j) (n (f.symm j))).thread.frames = []
  · have ended : ((w.alone (f.symm j) (n (f.symm j))).thread.onto f []).frames = [] := by
      simp [Thread.onto, live]
    simp [Solo.step?, Thread.step?_eq_none live, Thread.step?_eq_none ended]
  · have step := h.world.step? separate live [] m.threads.length m.outcome?
    cases found : (w.alone (f.symm j) (n (f.symm j))).step? with
    | none => simp [step, found]
    | some r => simp [step, found, Step.onto]

theorem lt_of_stepAt? (h : Spread f w k n main d trace m) (step : m.stepAt? (1 + j) = some (m', seen)) :
    j < k := by
  by_contra outside
  have none : m.threads[1 + j]? = none := by
    rw [h.threads, Nat.add_comm, List.getElem?_cons_succ, List.getElem?_eq_none]
    simpa [workers] using outside
  simp [Machine.stepAt?, none] at step

theorem advance (h : Spread f w k n main d trace m) (separate : w.Separate)
    (step : m.stepAt? (1 + j) = some (m', seen)) :
    Spread f w k (Function.update n (f.symm j) (n (f.symm j) + 1)) main d
      (trace ++ [(1 + j, seen)]) m' := by
  have hj := h.lt_of_stepAt? step
  rw [h.stepAt?_worker separate hj, Option.map_eq_some_iff] at step
  obtain ⟨r, taken, same⟩ := step
  cases same
  have next := Solo.next_of_step? taken
  constructor
  · exact h.world.advance separate taken
  · have thread : r.thread = (w.alone (f.symm j) (n (f.symm j) + 1)).thread := by
      rw [World.alone, next]
    rw [← set_workers hj, ← thread, h.threads, Nat.add_comm, List.set_cons_succ]
  · intro s i hi
    by_cases hs : s = f.symm j
    · subst hs
      rw [Function.update_self] at hi
      obtain less | rfl := Nat.lt_succ_iff_lt_or_eq.1 hi
      · exact h.live _ i less
      · rw [taken]; rfl
    · rw [Function.update_of_ne hs] at hi
      exact h.live s i hi
  · intro i hi
    rw [shownBy_step, h.shown i hi]
    by_cases same : j = i
    · subst same
      rw [if_pos rfl, Function.update_self, World.alone, next, List.map_append]
    · have other : f.symm i ≠ f.symm j := fun e => same (f.symm.injective e).symm
      rw [if_neg (by omega), List.append_nil, Function.update_of_ne other]
  · rw [List.length_append, List.length_singleton, h.steps, taken_update hj, Nat.add_assoc]

theorem outcome?_worker (h : Spread f w k n main d trace m) (hj : j < k) :
    m.outcome? (1 + j) = (w.alone (f.symm j) (n (f.symm j))).thread.outcome? := by
  rw [Machine.outcome?, h.found hj]
  exact Thread.outcome?_onto _

/-- The main thread goes on once all workers have ended. -/
theorem stepAt?_main (h : Spread f w k n (Thread.joining k) d trace m) :
    m.stepAt? 0 =
      ((List.range k).mapM fun j => (w.alone (f.symm j) (n (f.symm j))).thread.outcome?).map
        fun verdicts => (⟨m.world, m.threads.set 0 (Thread.joined verdicts)⟩, []) := by
  have outcomes : ((List.range k).map (1 + ·)).mapM m.outcome? =
      (List.range k).mapM fun j => (w.alone (f.symm j) (n (f.symm j))).thread.outcome? := by
    refine Option.ext fun verdicts => ?_
    rw [mapM_eq_some_iff, mapM_eq_some_iff, List.map_map]
    have same : ∀ j ∈ List.range k, (m.outcome? ∘ (1 + ·)) j =
        (w.alone (f.symm j) (n (f.symm j))).thread.outcome? :=
      fun j hj => h.outcome?_worker (List.mem_range.1 hj)
    rw [List.map_congr_left same]
  simp only [Machine.stepAt?, h.found_main, Option.bind_eq_bind, Option.bind_some]
  simp only [Thread.step?, Thread.joining, Thread.stepFrame?, outcomes]
  cases (List.range k).mapM fun j => (w.alone (f.symm j) (n (f.symm j))).thread.outcome? with
  | none => rfl
  | some verdicts =>
    cases joined : joinOutcomes verdicts <;>
      simp [joined, Thread.joined, Thread.give, Thread.fail]

end Spread

/-- A drain of all streams on threads of their own: about to start the workers, waiting for them,
or at its end. -/
inductive Concurrent (f : Equiv.Perm Nat) (w w' : World) (k : Nat) :
    List (Nat × List Occurrence) → Machine → Prop
  | start : Concurrent f w w' k [] ⟨w', [.ofCommand .scheduleConcurrently]⟩
  | waiting {trace : List (Nat × List Occurrence)} {m : Machine} (n : Nat → Nat)
      (spread : Spread f w k n (.joining k) 1 trace m) : Concurrent f w w' k trace m
  | ended {trace : List (Nat × List Occurrence)} {m : Machine} (n : Nat → Nat)
      (verdict : Nat → Except Panic Reply)
      (spread : Spread f w k n (.joined ((List.range k).map fun j => verdict (f.symm j))) 2 trace m)
      (finishes : ∀ j < k, w.Finishes (f.symm j) (n (f.symm j)) (verdict (f.symm j))) :
      Concurrent f w w' k trace m

namespace Concurrent

variable {w' : World} {k : Nat} {trace : List (Nat × List Occurrence)} {m m' : Machine}
  {seen : List Occurrence}

theorem stepAt?_start (w' : World) :
    Machine.stepAt? ⟨w', [.ofCommand .scheduleConcurrently]⟩ 0 =
      some (⟨w', .joining w'.streams.length :: (List.range w'.streams.length).map .worker⟩, []) :=
  rfl

theorem step (h : Concurrent f w w' k trace m) (separate : w.Separate)
    (start : w.Composed f (fun _ => 0) w') (count : w'.streams.length = k) {i : Nat}
    (step : m.stepAt? i = some (m', seen)) :
    Concurrent f w w' k (trace ++ [(i, seen)]) m' := by
  cases h with
  | start =>
    cases i with
    | succ i => simp [Machine.stepAt?] at step
    | zero =>
      rw [stepAt?_start, count, Option.some.injEq] at step
      cases step
      refine .waiting (fun _ => 0) ⟨start, ?_, by simp, ?_, ?_⟩
      · rw [workers_zero]
      · intro j hj
        rw [shownBy_step, if_neg (by omega)]
        rfl
      · simp [taken]
  | waiting n spread =>
    cases i with
    | succ i =>
      rw [Nat.add_comm] at step ⊢
      exact .waiting _ (spread.advance separate step)
    | zero =>
      rw [spread.stepAt?_main, Option.map_eq_some_iff] at step
      obtain ⟨verdicts, outcomes, same⟩ := step
      cases same
      rw [mapM_eq_some_iff] at outcomes
      have each (j : Nat) (hj : j < k) : (w.alone (f.symm j) (n (f.symm j))).thread.outcome? =
          some (verdicts[j]?.getD (.ok .ok)) := by
        have at_j := congrArg (fun l => l[j]?) outcomes
        simp only [List.getElem?_map, List.getElem?_range hj, Option.map_some] at at_j
        cases found : verdicts[j]? with
        | none => simp [found] at at_j
        | some v => simpa [found] using at_j
      have all : verdicts = (List.range k).map fun j => verdicts[f (f.symm j)]?.getD (.ok .ok) := by
        have length : verdicts.length = k := by simpa using (congrArg List.length outcomes).symm
        refine List.ext_getElem? fun j => ?_
        by_cases hj : j < k
        · simp [hj, length]
        · rw [List.getElem?_eq_none (by omega), List.getElem?_eq_none (by simpa using hj)]
      refine .ended n (fun s => verdicts[f s]?.getD (.ok .ok)) ⟨spread.world, ?_, spread.live, ?_, ?_⟩
        fun j hj => ⟨spread.live _, ?_⟩
      · rw [spread.threads, List.set_cons_zero, ← all]
      · intro j hj
        rw [shownBy_step, if_neg (by omega), List.append_nil, spread.shown j hj]
      · rw [List.length_append, List.length_singleton, spread.steps]
        omega
      · rw [each j hj, Equiv.apply_symm_apply]
  | ended n verdict spread finishes =>
    exfalso
    cases i with
    | succ i =>
      rw [Nat.add_comm] at step
      have hi := spread.lt_of_stepAt? step
      rw [spread.stepAt?_worker separate hi,
        World.step?_eq_none_of_outcome? (finishes i hi).outcome] at step
      cases step
    | zero =>
      simp [Machine.stepAt?, spread.found_main, Thread.step?_eq_none (Thread.frames_joined _)] at step

theorem of_interleaves (separate : w.Separate) (start : w.Composed f (fun _ => 0) w')
    (count : w'.streams.length = k)
    (run : Machine.Interleaves ⟨w', [.ofCommand .scheduleConcurrently]⟩ trace m) :
    Concurrent f w w' k trace m := by
  induction run with
  | refl => exact .start
  | step run i last ih => exact ih.step separate start count last

/-- A drain that has an outcome is at its end, and so is each of its workers. -/
theorem of_outcome? (h : Concurrent f w w' k trace m) {outcome : Except Panic Reply}
    (ended : m.outcome? 0 = some outcome) : ∃ n : Nat → Nat,
      Spread f w k n (.joined ((List.range k).map fun j => w.verdict (f.symm j))) 2 trace m ∧
      (∀ j < k, w.Finishes (f.symm j) (n (f.symm j)) (w.verdict (f.symm j))) ∧
      outcome = (joinOutcomes ((List.range k).map fun j => w.verdict (f.symm j))).map .count := by
  cases h with
  | start => cases ended
  | waiting n spread =>
    rw [Machine.outcome?, spread.found_main] at ended
    cases ended
  | ended n verdict spread finishes =>
    have same : ∀ j < k, verdict (f.symm j) = w.verdict (f.symm j) := fun j hj =>
      (finishes j hj).eq_verdict
    have all : ((List.range k).map fun j => verdict (f.symm j)) =
        (List.range k).map fun j => w.verdict (f.symm j) :=
      List.map_congr_left fun j hj => same j (List.mem_range.1 hj)
    rw [all] at spread
    refine ⟨n, spread, fun j hj => same j hj ▸ finishes j hj, ?_⟩
    have outcome := Thread.outcome?_joined ((List.range k).map fun j => w.verdict (f.symm j))
    rw [Machine.outcome?, spread.found_main] at ended
    exact Option.some.inj (ended.symm.trans outcome)

/-- If each worker ends alone, so do all of them together, in whatever order they step. -/
theorem terminates (separate : w.Separate) (start : w.Composed f (fun _ => 0) w')
    (count : w'.streams.length = k) {N : Nat → Nat} {verdict : Nat → Except Panic Reply}
    (finishes : ∀ j < k, w.Finishes (f.symm j) (N (f.symm j)) (verdict (f.symm j))) :
    Machine.Terminates ⟨w', [.ofCommand .scheduleConcurrently]⟩ := by
  refine ⟨2 + taken f N k, fun trace m run => ?_⟩
  have within {n : Nat → Nat} (live : ∀ s, ∀ i < n s, (w.alone s i).step?.isSome) :
      taken f n k ≤ taken f N k :=
    Finset.sum_le_sum fun j hj => (finishes j (Finset.mem_range.1 hj)).le (live (f.symm j))
  cases of_interleaves separate start count run with
  | start => exact ⟨by simp, .inr ⟨0, by rw [stepAt?_start]; rfl⟩⟩
  | waiting n spread =>
    have less := within spread.live
    refine ⟨by rw [spread.steps]; omega, .inr ?_⟩
    by_cases all : ∀ j < k, n (f.symm j) = N (f.symm j)
    · refine ⟨0, ?_⟩
      have outcomes : ((List.range k).mapM fun j =>
          (w.alone (f.symm j) (n (f.symm j))).thread.outcome?) =
            some ((List.range k).map fun j => verdict (f.symm j)) := by
        rw [mapM_eq_some_iff, List.map_map]
        refine List.map_congr_left fun j hj => ?_
        have hj := List.mem_range.1 hj
        rw [all j hj, (finishes j hj).outcome]
        rfl
      rw [spread.stepAt?_main, outcomes]
      rfl
    · simp only [not_forall] at all
      obtain ⟨j, hj, before⟩ := all
      refine ⟨1 + j, ?_⟩
      rw [spread.stepAt?_worker separate hj, Option.isSome_map]
      exact ((finishes j hj).progress (spread.live _)).resolve_left before
  | ended n verdict' spread finishes' =>
    have less := within spread.live
    have outcome := Thread.outcome?_joined ((List.range k).map fun j => verdict' (f.symm j))
    refine ⟨by rw [spread.steps]; omega, .inl ?_⟩
    rw [Machine.outcome?, spread.found_main]
    exact Option.isSome_iff_exists.2 ⟨_, outcome⟩

end Concurrent

end StreamMachine
