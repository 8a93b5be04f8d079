import StreamMachine.Proofs.Await
import StreamMachine.Proofs.Confined

/-! Runs of a call told by the steps of its own thread, and the stretches of them on which that
thread has one way to go. There all runs agree: each is still on the way, or has come past its end. -/
namespace StreamMachine

/-- Frames of host code, which may decide on the way what it does next: callbacks, and phases of
instruction kinds that are not built in. -/
def Frame.Decides : Frame → Prop
  | .callback .. => True
  | .phase i _ _ => ¬ i.behavior.Works
  | _ => False

/-- A thread that can take one step and no other, whatever the other threads do. -/
structure Thread.Forced (w : World) (t : Thread) (r : Step) : Prop where
  taken : ∀ fresh outcomes, t.step? w fresh outcomes = some r
  patient : ∀ a gate outer, t.frames ≠ .action a (.wait gate) :: outer
  busy : ∀ ids, ¬ t.WaitsFor ids
  decided : ∀ f ∈ t.frames.head?, ¬ f.Decides

theorem Thread.Forced.eq_of_goes {m : Machine} {t : Thread} {r r' : Step} (h : t.Forced m.world r)
    (goes : t.Goes m r') : r' = r := by
  cases goes with
  | step taken => exact Option.some.inj (taken.symm.trans (h.taken _ _))
  | expire a gate outer frames => exact (h.patient a gate outer frames).elim

theorem Thread.Revised.exists_head {t t' : Thread} (h : t.Revised t') : ∃ f, f ∈ t.frames.head? := by
  cases h with
  | moves i p old new outer frames | actions a old new outer frames => simp [frames]

theorem Thread.Revised.frames_ne_nil {t t' : Thread} (h : t.Revised t') : t.frames ≠ [] := by
  obtain ⟨f, head⟩ := h.exists_head
  rintro none
  simp [none] at head

namespace Call

variable {c : Call} {m₀ m m' : Machine} {own trace rest : List Pace}
  {t : Thread} {r : Step}

/-- How a call goes on, told by the steps of its own thread. Those of the threads that it has started
are left out; host code on any of its threads may change its mind. -/
inductive Follows (c : Call) (m₀ : Machine) : List Pace → Machine → Prop
  | refl : Follows c m₀ [] m₀
  | own {m : Machine} {own : List Pace} (run : Follows c m₀ own m) (t : Thread) (r : Step)
      (found : m.threads[c.place]? = some t) (above : c.outer.length < t.frames.length)
      (goes : t.Goes m r) : Follows c m₀ (own ++ [⟨t, r⟩]) (m.stepped c.place r)
  | other {m : Machine} {own : List Pace} (run : Follows c m₀ own m) (i : Nat) (t : Thread)
      (r : Step) (started : c.floor ≤ i) (found : m.threads[i]? = some t) (goes : t.Goes m r) :
      Follows c m₀ own (m.stepped i r)
  | decide {m : Machine} {own : List Pace} (run : Follows c m₀ own m) (i : Nat) (t t' : Thread)
      (found : m.threads[i]? = some t) (covered : c.Covers i t)
      (host : ∀ f ∈ t.frames.head?, f.Decides) (revised : t.Revised t') :
      Follows c m₀ own ⟨m.world, m.threads.set i t'⟩

theorem Follows.reaches (run : c.Follows m₀ own m) : ∃ seen, m₀.Reaches seen m := by
  induction run with
  | refl => exact ⟨_, .refl⟩
  | own _ t r found _ goes ih =>
    obtain ⟨seen, run⟩ := ih
    exact ⟨_, run.move (Machine.moves_of_goes found goes)⟩
  | other _ i t r _ found goes ih =>
    obtain ⟨seen, run⟩ := ih
    exact ⟨_, run.move (Machine.moves_of_goes found goes)⟩
  | decide _ i t t' found _ _ revised ih =>
    obtain ⟨seen, run⟩ := ih
    exact ⟨_, run.move (.revise i t t' found revised)⟩

theorem Awaited.decide (h : c.Awaited m) {i : Nat} {t' : Thread} (found : m.threads[i]? = some t)
    (revised : t.Revised t') : c.Awaited ⟨m.world, m.threads.set i t'⟩ := by
  obtain ⟨f, g, outer, calm, frames⟩ : ∃ f g outer, (∀ ids, f ≠ .join ids) ∧
      t.frames = f :: outer ∧ t'.frames = g :: outer := by
    cases revised with
    | moves i p old new outer frames => exact ⟨_, _, outer, by simp, frames, rfl⟩
    | actions a old new outer frames => exact ⟨_, _, outer, by simp, frames, rfl⟩
  refine ⟨h.early, by simpa using h.inside, fun j x above found' live => ?_⟩
  have before : ∃ y, m.threads[j]? = some y ∧ y.frames ≠ [] := by
    by_cases same : i = j
    · exact ⟨t, same ▸ found, by simp [frames.1]⟩
    · rw [List.getElem?_set_ne same] at found'
      exact ⟨x, found', live⟩
  obtain ⟨y, foundy, livey⟩ := before
  obtain ⟨k, z, ids, ownk, less, foundk, waits, mem⟩ := h.waited j y above foundy livey
  have other : i ≠ k := by
    rintro rfl
    obtain rfl := Option.some.inj (foundk.symm.trans found)
    obtain ⟨-, rest, joins⟩ := waits
    rw [frames.1] at joins
    cases joins
    exact calm ids rfl
  exact ⟨k, z, ids, ownk, less, by rw [List.getElem?_set_ne other, foundk], waits, mem⟩

theorem Follows.awaited (run : c.Follows m₀ own m) (h : c.Awaited m₀) : c.Awaited m := by
  induction run with
  | refl => exact h
  | own _ t r found above goes ih => exact ih.step found (.inl ⟨rfl, above⟩) goes
  | other _ i t r started found goes ih => exact ih.step found (.inr started) goes
  | decide _ i t t' found _ _ revised ih => exact ih.decide found revised

theorem Follows.cons (found : m₀.threads[c.place]? = some t)
    (above : c.outer.length < t.frames.length) (goes : t.Goes m₀ r)
    (run : c.Follows (m₀.stepped c.place r) own m) : c.Follows m₀ (⟨t, r⟩ :: own) m := by
  induction run with
  | refl => exact .own .refl t r found above goes
  | own _ t' r' found' above' goes' ih => exact .own ih t' r' found' above' goes'
  | other _ i t' r' started found' goes' ih => exact .other ih i t' r' started found' goes'
  | decide _ i t' t'' found' covered host revised ih =>
    exact .decide ih i t' t'' found' covered host revised

/-- Steps that the thread of a call can take go on with it while they stay above what it stands on. -/
theorem Follows.trail (run : c.Follows m₀ own m) (n : Nat) (above : ∀ k < n, c.outer.length <
      ((m.trail (List.replicate k c.place)).2.threads[c.place]?).elim 0 (·.frames.length)) :
    c.Follows m₀ (own ++ (m.trail (List.replicate n c.place)).1)
      (m.trail (List.replicate n c.place)).2 := by
  induction n generalizing m own with
  | zero => simpa [Machine.trail] using run
  | succ n ih =>
    have now : c.outer.length < (m.threads[c.place]?).elim 0 (·.frames.length) :=
      above 0 (Nat.zero_lt_succ n)
    have same (k : Nat) (less : k < n) := above k (less.trans (Nat.lt_succ_self n))
    rw [List.replicate_succ, Machine.trail]
    split
    · exact ih run same
    next t found =>
      split
      · exact ih run same
      next r taken =>
        rw [found] at now
        have later := ih (run.own t r found now (.step taken)) fun k less => by
          simpa [List.replicate_succ, Machine.trail, found, taken] using above (k + 1) (by omega)
        simpa using later

/-- A call that has not started any thread yet. -/
theorem Awaited.init (found : m.threads[c.place]? = some t) (floor : c.floor = m.threads.length) :
    c.Awaited m := by
  refine ⟨floor ▸ (List.getElem?_eq_some_iff.1 found).1, floor.le, fun j x above found' => ?_⟩
  have := (List.getElem?_eq_some_iff.1 found').1
  omega

/-- The first step of a run is the one that is forced. -/
theorem Follows.head (run : c.Follows m₀ own m) (awaited : c.Awaited m₀)
    (found : m₀.threads[c.place]? = some t) (forced : t.Forced m₀.world r) :
    (own = [] ∧ m = m₀) ∨
      ∃ rest, own = ⟨t, r⟩ :: rest ∧ c.Follows (m₀.stepped c.place r) rest m := by
  induction run with
  | refl => exact .inl ⟨rfl, rfl⟩
  | own run x r' found' above goes ih =>
    obtain ⟨rfl, rfl⟩ | ⟨rest, rfl, later⟩ := ih
    · obtain rfl := Option.some.inj (found.symm.trans found')
      obtain rfl := forced.eq_of_goes goes
      exact .inr ⟨[], rfl, .refl⟩
    · exact .inr ⟨rest ++ [⟨x, r'⟩], rfl, later.own x r' found' above goes⟩
  | other run i x r' started found' goes ih =>
    obtain ⟨rfl, rfl⟩ | ⟨rest, rfl, later⟩ := ih
    · exact (goes.frames_ne_nil (awaited.ended found forced.busy started found')).elim
    · exact .inr ⟨rest, rfl, later.other i x r' started found' goes⟩
  | decide run i x x' found' covered host revised ih =>
    obtain ⟨rfl, rfl⟩ | ⟨rest, rfl, later⟩ := ih
    · obtain ⟨rfl, -⟩ | started := covered
      · obtain rfl := Option.some.inj (found.symm.trans found')
        obtain ⟨f, head⟩ := revised.exists_head
        exact (forced.decided f head (host f head)).elim
      · exact (revised.frames_ne_nil (awaited.ended found forced.busy started found')).elim
    · exact .inr ⟨rest, rfl, later.decide i x x' found' covered host revised⟩

/-- A call whose thread neither goes on nor waits for threads that it has started has come to a
stop. -/
theorem Follows.of_still (run : c.Follows m₀ own m) (awaited : c.Awaited m₀)
    (found : m₀.threads[c.place]? = some t) (busy : ∀ ids, ¬ t.WaitsFor ids)
    (still : c.outer.length < t.frames.length →
      (∀ r, ¬ t.Goes m₀ r) ∧ ∀ f ∈ t.frames.head?, ¬ f.Decides) : own = [] ∧ m = m₀ := by
  induction run with
  | refl => exact ⟨rfl, rfl⟩
  | own run x r' found' above goes ih =>
    obtain ⟨rfl, rfl⟩ := ih
    obtain rfl := Option.some.inj (found.symm.trans found')
    exact ((still above).1 r' goes).elim
  | other run i x r' started found' goes ih =>
    obtain ⟨rfl, rfl⟩ := ih
    exact (goes.frames_ne_nil (awaited.ended found busy started found')).elim
  | decide run i x x' found' covered host revised ih =>
    obtain ⟨rfl, rfl⟩ := ih
    obtain ⟨rfl, above⟩ | started := covered
    · obtain rfl := Option.some.inj (found.symm.trans found')
      obtain ⟨f, head⟩ := revised.exists_head
      exact ((still above).2 f head (host f head)).elim
    · exact (revised.frames_ne_nil (awaited.ended found busy started found')).elim

/-- A call that is back goes no further. -/
theorem Follows.of_back (run : c.Follows m₀ own m) (awaited : c.Awaited m₀)
    (found : m₀.threads[c.place]? = some t) (back : t.frames = c.outer)
    (busy : ∀ ids, ¬ t.WaitsFor ids) : own = [] ∧ m = m₀ :=
  run.of_still awaited found busy fun above => absurd above (by rw [back]; exact lt_irrefl _)

/-- A stretch on which each step of the call is forced. -/
inductive Stretch (c : Call) : Machine → List Pace → Machine → Prop
  | refl (m : Machine) : Stretch c m [] m
  | step {m m' : Machine} {t : Thread} {r : Step} {trace : List Pace}
      (found : m.threads[c.place]? = some t) (above : c.outer.length < t.frames.length)
      (forced : t.Forced m.world r) (rest : Stretch c (m.stepped c.place r) trace m') :
      Stretch c m (⟨t, r⟩ :: trace) m'

theorem Stretch.follows (stretch : c.Stretch m₀ trace m) : c.Follows m₀ trace m := by
  induction stretch with
  | refl => exact .refl
  | step found above forced _ ih => exact .cons found above (.step (forced.taken _ _)) ih

/-- All runs of a call agree with a stretch: they are still on it, or have gone past its end. -/
theorem Stretch.agrees (stretch : c.Stretch m₀ trace m') (awaited : c.Awaited m₀)
    (run : c.Follows m₀ own m) :
    (∃ rest, trace = own ++ rest ∧ c.Stretch m₀ own m ∧ c.Stretch m rest m') ∨
      ∃ rest, own = trace ++ rest ∧ c.Follows m' rest m := by
  induction stretch generalizing own with
  | refl => exact .inr ⟨own, rfl, run⟩
  | step found above forced rest ih =>
    obtain ⟨rfl, rfl⟩ | ⟨later, rfl, run'⟩ := run.head awaited found forced
    · exact .inl ⟨_, rfl, .refl _, .step found above forced rest⟩
    · have first := Follows.refl.own _ _ found above (.step (forced.taken _ _))
      obtain ⟨left, rfl, done, stretch⟩ | ⟨past, rfl, beyond⟩ := ih (first.awaited awaited) run'
      · exact .inl ⟨left, rfl, .step found above forced done, stretch⟩
      · exact .inr ⟨past, rfl, beyond⟩

theorem Stretch.trans (first : c.Stretch m₀ trace m) (second : c.Stretch m rest m') :
    c.Stretch m₀ (trace ++ rest) m' := by
  induction first with
  | refl => exact second
  | step found above forced _ ih => exact .step found above forced (ih second)

/-- Nothing happens in a call but what a stretch tells that leads to its end. -/
theorem Stretch.covers (stretch : c.Stretch m₀ trace m') (awaited : c.Awaited m₀)
    (found : m'.threads[c.place]? = some t) (back : t.frames = c.outer) (ended : t.control ≠ .run)
    (run : c.Follows m₀ own m) :
    ∃ rest, trace = own ++ rest ∧ c.Stretch m₀ own m ∧ c.Stretch m rest m' := by
  obtain within | ⟨rest, rfl, beyond⟩ := stretch.agrees awaited run
  · exact within
  · have later := stretch.follows.awaited awaited
    obtain ⟨rfl, rfl⟩ := beyond.of_back later found back fun ids waits => ended waits.1
    exact ⟨[], by simp, by simpa using stretch, .refl _⟩

/-- No stretch begins where a call is back. -/
theorem Stretch.of_back (stretch : c.Stretch m₀ trace m) (found : m₀.threads[c.place]? = some t)
    (back : t.frames = c.outer) : m = m₀ := by
  cases stretch with
  | refl => rfl
  | step found' above =>
    obtain rfl := Option.some.inj (found.symm.trans found')
    exact absurd above (by rw [back]; exact lt_irrefl _)

/-- A stretch without deeds leaves the world as it is. -/
theorem Stretch.world_eq (stretch : c.Stretch m₀ trace m)
    (still : ∀ x ∈ trace, x.step.deed = .nothing) : m.world = m₀.world := by
  induction stretch with
  | refl => rfl
  | @step m₁ _ _ r _ _ _ _ _ ih =>
    obtain ⟨first, rest⟩ := List.forall_mem_cons.1 still
    rw [ih rest]
    change m₁.world.after r.deed = m₁.world
    rw [show r.deed = .nothing from first, World.after]

end Call

end StreamMachine
