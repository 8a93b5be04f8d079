import StreamMachine.Proofs.Accounts
import StreamMachine.Proofs.Alone

/-! Calls under way. A call goes on by the steps of its own thread and of the threads that it has
started. It waits for all of those: whenever its own thread does not wait, they have ended. -/
namespace StreamMachine

/-- A call on the thread at a place, on top of the frames there; the threads from some place on are
those that it has started. -/
structure Call where
  place : Nat
  outer : List Frame
  floor : Nat

/-- A thread that waits for others. -/
def Thread.WaitsFor (t : Thread) (ids : List Nat) : Prop :=
  t.control = .run ∧ ∃ outer, t.frames = .join ids :: outer

theorem exists_of_mapM {outcomes : Nat → Option (Except Panic Reply)} {ids : List Nat}
    {results : List (Except Panic Reply)} (h : ids.mapM outcomes = some results) {j : Nat}
    (mem : j ∈ ids) : ∃ result, outcomes j = some result := by
  induction ids generalizing results with
  | nil => cases mem
  | cons i ids ih =>
    simp only [List.mapM_cons, Option.pure_def, Option.bind_eq_bind, Option.bind_eq_some_iff] at h
    obtain ⟨first, hfirst, rest, hrest, -⟩ := h
    obtain rfl | mem := List.mem_cons.1 mem
    · exact ⟨first, hfirst⟩
    · exact ih hrest mem

namespace Thread

variable {w : World} {t : Thread} {fresh : Nat} {outcomes : Nat → Option (Except Panic Reply)}
  {r : Step}

/-- Only a concurrent schedule starts threads. -/
theorem spawned_of_stepCommand? {c : Command} {outer : List Frame}
    (h : t.stepCommand? w fresh c outer = some r) : r.spawned = [] ∨ c = .scheduleConcurrently := by
  cases c with
  | scheduleConcurrently => exact .inr rfl
  | schedule => cases h; exact .inl rfl
  | store | query | receive | receiveMessage | runPending =>
    left
    simp only [stepCommand?] at h
    split at h <;> cases h <;> rfl
  | enqueue =>
    left
    simp only [stepCommand?, Option.some.injEq] at h
    subst h
    split
    · rfl
    · split <;> rfl

theorem spawned_of_stepAction? {a : Accessor} {action : Action} {outer : List Frame}
    (h : t.stepAction? w a action outer = some r) : r.spawned = [] := by
  cases action with
  | access =>
    simp only [stepAction?, Option.some.injEq] at h
    subst h
    split
    · rfl
    · split <;> rfl
  | wait =>
    simp only [stepAction?] at h
    split at h <;> cases h
    rfl
  | _ => cases h; rfl

theorem spawned_of_step? (h : t.step? w fresh outcomes = some r) : r.spawned = [] ∨
    t.control = .run ∧ ∃ outer, t.frames = .command .scheduleConcurrently :: outer := by
  cases stride_of_step? h with
  | move _ _ _ _ _ _ _ _ _ _ _ spawned => exact .inl spawned
  | drain s p e outer frames turn =>
    cases turn with
    | calm frame rest added frames' calm =>
      rw [frames] at frames'
      cases frames'
      exact calm.elim
    | _ => exact .inl rfl
  | plain frame outer added frames plain =>
    simp only [step?, frames] at h
    split at h
    next run =>
      cases frame with
      | drain | schedule | run | phase => exact plain.elim
      | command c =>
        exact (spawned_of_stepCommand? h).imp_right fun same => ⟨run, outer, by rw [frames, same]⟩
      | action a action => exact .inl (spawned_of_stepAction? h)
      | callback _ actions => cases actions <;> cases h <;> exact .inl rfl
      | borrow =>
        simp only [stepFrame?] at h
        split at h <;> cases h
        exact .inl rfl
      | join =>
        simp only [stepFrame?] at h
        split at h
        · cases h
        · split at h <;> cases h <;> exact .inl rfl
      | log | logDrain | catching | helper => cases h; exact .inl rfl
    all_goals
      cases h
      cases frame <;> first | exact .inl rfl | exact plain.elim
  | _ => exact .inl rfl

end Thread

namespace Thread.Goes

variable {m : Machine} {t : Thread} {r : Step} {frame : Frame} {outer : List Frame}

theorem of_frame (h : t.Goes m r) (frames : t.frames = frame :: outer) (run : t.control = .run)
    (other : ∀ a gate, frame ≠ .action a (.wait gate)) :
    t.stepFrame? m.world m.threads.length m.outcome? frame outer = some r := by
  cases h with
  | step taken => simpa only [step?, frames, run] using taken
  | expire a gate rest frames' =>
    rw [frames] at frames'
    cases frames'
    exact (other a gate rfl).elim

theorem of_reply (h : t.Goes m r) (frames : t.frames = frame :: outer) {reply : Reply}
    (control : t.control = .reply reply) : r = t.stepReply m.world reply frame outer := by
  cases h with
  | step taken =>
    simp only [step?, frames, control, Option.some.injEq] at taken
    exact taken.symm
  | expire a gate rest frames' run =>
    rw [control] at run
    cases run

theorem of_unwind (h : t.Goes m r) (frames : t.frames = frame :: outer) {panic : Panic}
    (control : t.control = .unwind panic) : r = t.stepUnwind panic frame outer := by
  cases h with
  | step taken =>
    simp only [step?, frames, control, Option.some.injEq] at taken
    exact taken.symm
  | expire a gate rest frames' run =>
    rw [control] at run
    cases run

theorem frames_ne_nil (h : t.Goes m r) : t.frames ≠ [] := h.turn_stride.1.frames_ne_nil

/-- Threads that a thread starts it waits for. -/
theorem waits (h : t.Goes m r) (started : r.spawned ≠ []) : ∃ ids, r.thread.WaitsFor ids ∧
    ∀ j, m.threads.length ≤ j → j < m.threads.length + r.spawned.length → j ∈ ids := by
  cases h with
  | expire => exact (started rfl).elim
  | step taken =>
    obtain none | ⟨run, outer, frames⟩ := spawned_of_step? taken
    · exact (started none).elim
    simp only [step?, frames, run, stepFrame?, stepCommand?, Option.some.injEq] at taken
    subst taken
    refine ⟨_, ⟨rfl, outer, rfl⟩, fun j low high => ?_⟩
    simp only [List.length_map, List.length_range] at high
    simp only [List.mem_map, List.mem_range]
    exact ⟨j - m.threads.length, by omega, by omega⟩

/-- A thread goes on once all threads have ended that it waits for. -/
theorem ended (h : t.Goes m r) {ids : List Nat} (waits : t.WaitsFor ids) {j : Nat} (mem : j ∈ ids)
    {x : Thread} (found : m.threads[j]? = some x) : x.frames = [] := by
  obtain ⟨run, outer, frames⟩ := waits
  cases h with
  | expire a gate rest frames' =>
    rw [frames] at frames'
    cases frames'
  | step taken =>
    simp only [step?, frames, run, stepFrame?] at taken
    split at taken
    · cases taken
    next results joined =>
      obtain ⟨result, outcome⟩ := exists_of_mapM joined mem
      rw [Machine.outcome?, found] at outcome
      exact frames_of_outcome? outcome

end Thread.Goes

namespace Call

variable {c : Call} {m₀ m m' : Machine} {trace trace' : List Pace} {seen seen' : List Occurrence}

/-- The step of a thread belongs to a call: it is on top of what the call stands on, or on a thread
that the call has started. -/
def Covers (c : Call) (i : Nat) (t : Thread) : Prop :=
  i = c.place ∧ c.outer.length < t.frames.length ∨ c.floor ≤ i

/-- How a call goes on while all other threads stand still, up to its end. -/
inductive Runs (c : Call) (m₀ : Machine) : List Pace → List Occurrence → Machine → Prop
  | refl : Runs c m₀ [] [] m₀
  | go {m : Machine} {trace : List Pace} {seen : List Occurrence} (run : Runs c m₀ trace seen m)
      (i : Nat) (t : Thread) (r : Step) (found : m.threads[i]? = some t) (covered : c.Covers i t)
      (goes : t.Goes m r) : Runs c m₀ (trace ++ [⟨t, r⟩]) (seen ++ r.seen) (m.stepped i r)

theorem Runs.reaches (run : c.Runs m₀ trace seen m) : m₀.Reaches seen m := by
  induction run with
  | refl => exact .refl
  | go run i t r found covered goes ih => exact ih.move (Machine.moves_of_goes found goes)

theorem Runs.trans (run : c.Runs m₀ trace seen m) (rest : c.Runs m trace' seen' m') :
    c.Runs m₀ (trace ++ trace') (seen ++ seen') m' := by
  induction rest with
  | refl => simpa using run
  | go _ i t r found covered goes ih => simpa using ih.go i t r found covered goes

theorem Runs.one {i : Nat} {t : Thread} {r : Step} (found : m.threads[i]? = some t)
    (covered : c.Covers i t) (goes : t.Goes m r) : c.Runs m [⟨t, r⟩] r.seen (m.stepped i r) := by
  simpa using Runs.refl.go i t r found covered goes

theorem Runs.widen {d : Call} (run : d.Runs m₀ trace seen m)
    (more : ∀ i t, d.Covers i t → c.Covers i t) : c.Runs m₀ trace seen m := by
  induction run with
  | refl => exact .refl
  | go run i t r found covered goes ih => exact ih.go i t r found (more i t covered) goes

/-- Threads never go away. -/
theorem Runs.length_le (run : c.Runs m₀ trace seen m) : m₀.threads.length ≤ m.threads.length := by
  induction run with
  | refl => exact le_rfl
  | go run i t r found covered goes ih =>
    simp only [Machine.stepped, List.length_append, List.length_set]
    omega

/-- Threads that are not of a call stand still. -/
theorem Runs.untouched (run : c.Runs m₀ trace seen m) (inside : c.floor ≤ m₀.threads.length)
    {j : Nat} (low : j < c.floor) (other : j ≠ c.place) : m.threads[j]? = m₀.threads[j]? := by
  induction run with
  | refl => rfl
  | @go m trace seen run i t r found covered goes ih =>
    have apart : j ≠ i := by
      rintro rfl
      obtain ⟨rfl, -⟩ | above := covered
      · exact other rfl
      · omega
    have within : j < m.threads.length := low.trans_le (inside.trans run.length_le)
    rw [Machine.getElem?_stepped_of_ne within apart, ih]

/-- A call on a thread of its own goes on by whatever steps that thread and later ones can take. -/
theorem Runs.trail {place : Nat} (run : Runs ⟨place, [], place + 1⟩ m₀ trace seen m)
    {order : List Nat} (later : ∀ i ∈ order, place ≤ i) :
    Runs ⟨place, [], place + 1⟩ m₀ (trace ++ (m.trail order).1)
      (seen ++ (m.trail order).1.flatMap (·.step.seen)) (m.trail order).2 := by
  induction order generalizing m trace seen with
  | nil => simpa [Machine.trail] using run
  | cons i order ih =>
    have rest : ∀ j ∈ order, place ≤ j := fun j hj => later j (List.mem_cons_of_mem i hj)
    rw [Machine.trail]
    split
    · exact ih run rest
    next t found =>
      split
      · exact ih run rest
      next r taken =>
        have goes : t.Goes m r := .step taken
        have covered : Covers ⟨place, [], place + 1⟩ i t := by
          obtain same | less := (later i List.mem_cons_self).eq_or_lt
          · exact .inl ⟨same.symm, List.length_pos_iff.2 goes.frames_ne_nil⟩
          · exact .inr less
        simpa using ih (run.go i t r found covered goes) rest

/-- Whatever thread a call has started that has not ended, an earlier one of its threads waits for
it. -/
structure Awaited (c : Call) (m : Machine) : Prop where
  early : c.place < c.floor
  inside : c.floor ≤ m.threads.length
  waited : ∀ j t, c.floor ≤ j → m.threads[j]? = some t → t.frames ≠ [] →
    ∃ i x ids, (i = c.place ∨ c.floor ≤ i) ∧ i < j ∧ m.threads[i]? = some x ∧ x.WaitsFor ids ∧
      j ∈ ids

theorem Awaited.step (h : c.Awaited m) {i : Nat} {t : Thread} {r : Step}
    (found : m.threads[i]? = some t) (covered : c.Covers i t) (goes : t.Goes m r) :
    c.Awaited (m.stepped i r) := by
  have low : i < m.threads.length := (List.getElem?_eq_some_iff.1 found).1
  have own : i = c.place ∨ c.floor ≤ i := covered.imp_left And.left
  have grown : (m.stepped i r).threads.length = m.threads.length + r.spawned.length := by
    simp [Machine.stepped]
  refine ⟨h.early, by rw [grown]; exact h.inside.trans (Nat.le_add_right _ _), ?_⟩
  intro j x above found' live
  have high : j < (m.stepped i r).threads.length := (List.getElem?_eq_some_iff.1 found').1
  by_cases new : m.threads.length ≤ j
  · have started : r.spawned ≠ [] := by
      rintro none
      simp only [grown, none, List.length_nil] at high
      omega
    obtain ⟨ids, waits, all⟩ := goes.waits started
    exact ⟨i, r.thread, ids, own, by omega, Machine.getElem?_stepped found r, waits,
      all j new (by omega)⟩
  · have before : ∃ y, m.threads[j]? = some y ∧ y.frames ≠ [] := by
      by_cases same : j = i
      · exact ⟨t, same ▸ found, goes.frames_ne_nil⟩
      · rw [Machine.getElem?_stepped_of_ne (by omega) same] at found'
        exact ⟨x, found', live⟩
    obtain ⟨y, foundy, livey⟩ := before
    obtain ⟨k, z, ids, ownk, less, foundk, waits, mem⟩ := h.waited j y above foundy livey
    -- The one that waits for a thread that has not ended is not the one that has gone on.
    have other : k ≠ i := by
      rintro rfl
      obtain rfl : z = t := Option.some.inj (foundk.symm.trans found)
      exact livey (goes.ended waits mem foundy)
    refine ⟨k, z, ids, ownk, less, ?_, waits, mem⟩
    rw [Machine.getElem?_stepped_of_ne (by omega) other, foundk]

theorem Awaited.run (h : c.Awaited m₀) (run : c.Runs m₀ trace seen m) : c.Awaited m := by
  induction run with
  | refl => exact h
  | go run i t r found covered goes ih => exact ih.step found covered goes

/-- While the thread of a call does not wait, it alone goes on. -/
theorem Awaited.ended (h : c.Awaited m) {t : Thread} (found : m.threads[c.place]? = some t)
    (busy : ∀ ids, ¬ t.WaitsFor ids) {j : Nat} {x : Thread} (above : c.floor ≤ j)
    (found' : m.threads[j]? = some x) : x.frames = [] := by
  induction j using Nat.strong_induction_on generalizing x with
  | _ j ih =>
    by_contra live
    obtain ⟨i, y, ids, rfl | own, less, foundi, waits, -⟩ := h.waited j x above found' live
    · exact busy ids (Option.some.inj (found.symm.trans foundi) ▸ waits)
    · have none := ih i less own foundi
      obtain ⟨-, outer, frames⟩ := waits
      rw [none] at frames
      cases frames

/-- While the thread of a call does not wait, no other one of the call takes a step. -/
theorem Awaited.own (h : c.Awaited m) {t x : Thread} {i : Nat} {r : Step}
    (found : m.threads[c.place]? = some t) (busy : ∀ ids, ¬ t.WaitsFor ids)
    (found' : m.threads[i]? = some x) (covered : c.Covers i x) (goes : x.Goes m r) :
    i = c.place ∧ x = t ∧ c.outer.length < t.frames.length := by
  obtain ⟨rfl, under⟩ | above := covered
  · obtain rfl := Option.some.inj (found'.symm.trans found)
    exact ⟨rfl, rfl, under⟩
  · exact (goes.frames_ne_nil (h.ended found busy above found')).elim

end Call

end StreamMachine
