import Mathlib.Data.Set.Basic
import Mathlib.Logic.Function.Basic
import StreamMachine.Proofs.Onto
import StreamMachine.Proofs.Reach

/-! Workers on their own. What a worker does when no other thread moves tells what it does among the
others, if no worker changes what another one touches: a world in which some of the workers have
come some way looks to each of them as if it had come that way alone. -/
namespace StreamMachine

variable {f : Equiv.Perm Nat}

theorem Thread.step?_congr {w : World} {t : Thread} (alone : .workers ∉ t.reads w)
    (fresh fresh' : Nat) (outcomes outcomes' : Nat → Option (Except Panic Reply)) :
    t.step? w fresh outcomes = t.step? w fresh' outcomes' := by
  obtain ⟨frames, control, spans⟩ := t
  cases frames with
  | nil => rfl
  | cons frame rest =>
    cases control with
    | run =>
      cases frame with
      | command c =>
        cases c with
        | scheduleConcurrently => exact (alone (.inl rfl)).elim
        | _ => rfl
      | join => exact (alone rfl).elim
      | schedule left => cases left <;> rfl
      | phase _ _ moves => cases moves <;> rfl
      | callback _ actions => cases actions <;> rfl
      | _ => rfl
    | reply | unwind => rfl

theorem Thread.step?_eq_none {t : Thread} {w : World} {fresh : Nat}
    {outcomes : Nat → Option (Except Panic Reply)} (h : t.frames = []) :
    t.step? w fresh outcomes = none := by
  rw [Thread.step?, h]

theorem Thread.frames_of_outcome? {t : Thread} {v : Except Panic Reply}
    (h : t.outcome? = some v) : t.frames = [] := by
  rw [Thread.outcome?] at h
  split at h
  next frames _ => exact frames
  next frames _ => exact frames
  · cases h

/-- One thread with the world to itself. -/
structure Solo where
  world : World
  thread : Thread
  seen : List Occurrence

namespace Solo

def step? (x : Solo) : Option Step := x.thread.step? x.world 0 fun _ => none

/-- One step further, if there is one. -/
def next (x : Solo) : Solo :=
  match x.step? with
  | none => x
  | some r => ⟨x.world.after r.deed, r.thread, x.seen ++ r.seen⟩

/-- What the next step changes. -/
def changes (x : Solo) : Set Resource :=
  {resource | ∃ r, x.step? = some r ∧ resource ∈ r.deed.changes x.world}

/-- What the next step looks at or changes. -/
def touches (x : Solo) : Set Resource := x.thread.reads x.world ∪ x.changes

theorem next_of_step? {x : Solo} {r : Step} (h : x.step? = some r) :
    x.next = ⟨x.world.after r.deed, r.thread, x.seen ++ r.seen⟩ := by
  rw [next, h]

end Solo

namespace World

/-- The worker of a stream after a number of steps alone. -/
def alone (w : World) (s : Nat) : Nat → Solo
  | 0 => ⟨w, .worker s, []⟩
  | n + 1 => (w.alone s n).next

/-- What the worker of a stream changes when it is alone. -/
def changedBy (w : World) (s : Nat) : Set Resource := {r | ∃ n, r ∈ (w.alone s n).changes}

/-- What the worker of a stream looks at or changes when it is alone. -/
def touchedBy (w : World) (s : Nat) : Set Resource := {r | ∃ n, r ∈ (w.alone s n).touches}

/-- The instructions of a stream act on that stream only, change nothing that those of another
stream touch, and start no drains on threads of their own. -/
structure Separate (w : World) : Prop where
  apart : ∀ s s', s ≠ s' → ∀ r ∈ w.changedBy s, r ∉ w.touchedBy s'
  single : ∀ s, .workers ∉ w.touchedBy s

/-- The worker of a stream ends, when it is alone, after a number of steps. -/
structure Finishes (w : World) (s n : Nat) (verdict : Except Panic Reply) : Prop where
  live : ∀ k < n, (w.alone s k).step?.isSome
  outcome : (w.alone s n).thread.outcome? = some verdict

/-- A world in which each worker has come some way; `f` tells where its streams are. -/
structure Composed (f : Equiv.Perm Nat) (w : World) (n : Nat → Nat) (w' : World) : Prop where
  alike : ∀ s, Alike f (w.touchedBy s) (w.alone s (n s)).world w'
  rest : ∀ r, (∀ s, r ∉ w.changedBy s) → w'.view (r.moved f) = w.view r

variable {w w' : World} {s : Nat} {n : Nat → Nat}

theorem changedBy_subset (w : World) (s : Nat) : w.changedBy s ⊆ w.touchedBy s :=
  fun _ ⟨n, h⟩ => ⟨n, .inr h⟩

theorem mem_changedBy {k : Nat} {r : Step} (h : (w.alone s k).step? = some r) :
    r.deed.changes (w.alone s k).world ⊆ w.changedBy s :=
  fun _ hr => ⟨k, r, h, hr⟩

theorem reads_subset (w : World) (s k : Nat) :
    (w.alone s k).thread.reads (w.alone s k).world ⊆ w.touchedBy s :=
  fun _ hr => ⟨k, .inl hr⟩

theorem Separate.workers_notMem (h : w.Separate) (s k : Nat) :
    .workers ∉ (w.alone s k).thread.reads (w.alone s k).world :=
  fun hr => h.single s (w.reads_subset s k hr)

namespace Composed

/-- A step that one worker takes alone is a step of the world they share. -/
theorem advance (h : Composed f w n w') (separate : w.Separate) {r : Step}
    (step : (w.alone s (n s)).step? = some r) :
    Composed f w (Function.update n s (n s + 1)) (w'.after (r.deed.moved f)) := by
  have changed := mem_changedBy step
  have inside := changed.trans (w.changedBy_subset s)
  have kept {x : Resource} (hx : x ∉ w.changedBy s) :
      (w'.after (r.deed.moved f)).view (x.moved f) = w'.view (x.moved f) := by
    refine view_after_of_notMem fun mem => hx ?_
    exact changed (((h.alike s).mem_changes inside x).1 mem)
  constructor
  · intro s'
    by_cases hs : s' = s
    · subst hs
      rw [Function.update_self, alone, Solo.next_of_step? step]
      exact (h.alike s').after inside
    · rw [Function.update_of_ne hs]
      have before := h.alike s'
      refine ⟨?_, ?_, ?_, before.tidy, before.tidy'.after _, before.ordered, ?_⟩
      · rw [registry_after, before.registry]
      · intro i
        rw [profiles_after, before.profiles]
      · intro category
        rw [streamOf?_after, before.routes]
      · intro x hx
        have other : x ∉ w.changedBy s := fun hc =>
          separate.apart s s' (Ne.symm hs) x hc hx
        rw [kept other, before.views x hx]
  · intro x hx
    rw [kept (hx s), h.rest x hx]

/-- The step that a worker takes alone it can take in the shared world, on any thread. -/
theorem step? (h : Composed f w n w') (separate : w.Separate)
    (live : (w.alone s (n s)).thread.frames ≠ []) (outer : List Frame) (fresh : Nat)
    (outcomes : Nat → Option (Except Panic Reply)) :
    ((w.alone s (n s)).thread.onto f outer).step? w' fresh outcomes =
      (w.alone s (n s)).step?.map (Step.onto f outer) :=
  (h.alike s).step? (w.reads_subset s (n s)) (separate.workers_notMem s (n s)) live outer fresh
    outcomes

/-- Before any worker has moved. -/
theorem init (alike : ∀ s, Alike f (w.touchedBy s) w w')
    (views : ∀ r, w'.view (r.moved f) = w.view r) : Composed f w (fun _ => 0) w' where
  alike := alike
  rest r _ := views r

/-- What a worker touches looks as the worker has left it. -/
theorem view_of_mem (h : Composed f w n w') {r : Resource} (hr : r ∈ w.touchedBy s) :
    w'.view (r.moved f) = (w.alone s (n s)).world.view r :=
  (h.alike s).views r hr

/-- The way each worker has come that changes a resource tells what it looks like. -/
theorem view_eq {f' : Equiv.Perm Nat} {w'' : World} {n' : Nat → Nat} (h : Composed f w n w')
    (h' : Composed f' w n' w'') {r : Resource} (same : ∀ s, r ∈ w.changedBy s → n s = n' s) :
    w'.view (r.moved f) = w''.view (r.moved f') := by
  by_cases changed : ∃ s, r ∈ w.changedBy s
  · obtain ⟨s, hs⟩ := changed
    have touched := w.changedBy_subset s hs
    rw [h.view_of_mem touched, h'.view_of_mem touched, same s hs]
  · have kept (s : Nat) : r ∉ w.changedBy s := fun hs => changed ⟨s, hs⟩
    rw [h.rest r kept, h'.rest r kept]

end Composed

/-- A worker that cannot go on stays where it is. -/
theorem alone_eq_of_step?_eq_none {k : Nat} (stuck : (w.alone s k).step? = none) (d : Nat) :
    w.alone s (k + d) = w.alone s k := by
  induction d with
  | zero => rfl
  | succ d ih => rw [← Nat.add_assoc, alone, ih, Solo.next, stuck]

theorem step?_eq_none_of_outcome? {k : Nat} {v : Except Panic Reply}
    (h : (w.alone s k).thread.outcome? = some v) : (w.alone s k).step? = none :=
  Thread.step?_eq_none (Thread.frames_of_outcome? h)

/-- A worker that ends at all does so after steps that are all taken. -/
theorem exists_finishes {k : Nat} {v : Except Panic Reply}
    (h : (w.alone s k).thread.outcome? = some v) : ∃ n, w.Finishes s n v := by
  induction k with
  | zero => exact ⟨0, by simp, h⟩
  | succ k ih =>
    by_cases live : ∀ j < k + 1, (w.alone s j).step?.isSome
    · exact ⟨k + 1, live, h⟩
    · simp only [not_forall] at live
      obtain ⟨j, hj, stuck⟩ := live
      have none : (w.alone s j).step? = none := by simpa using stuck
      obtain ⟨d, rfl⟩ := Nat.exists_eq_add_of_le (Nat.le_of_lt_succ hj)
      refine ih ?_
      rw [alone_eq_of_step?_eq_none none, ← alone_eq_of_step?_eq_none none (d + 1)]
      exact h

namespace Finishes

variable {N : Nat} {v : Except Panic Reply}

/-- Nobody comes further than to the end. -/
theorem le (h : w.Finishes s N v) {k : Nat} (live : ∀ j < k, (w.alone s j).step?.isSome) :
    k ≤ N := by
  by_contra less
  have := live N (by omega)
  rw [step?_eq_none_of_outcome? h.outcome] at this
  cases this

theorem unique (h : w.Finishes s N v) {N' : Nat} {v' : Except Panic Reply}
    (h' : w.Finishes s N' v') : N' = N ∧ v' = v := by
  obtain rfl : N' = N := le_antisymm (h.le h'.live) (h'.le h.live)
  exact ⟨rfl, Option.some.inj (h'.outcome.symm.trans h.outcome)⟩

/-- A worker on its way to its end is there or can go on. -/
theorem progress (h : w.Finishes s N v) {k : Nat}
    (live : ∀ j < k, (w.alone s j).step?.isSome) : k = N ∨ (w.alone s k).step?.isSome := by
  obtain less | rfl := (h.le live).lt_or_eq
  · exact .inr (h.live k less)
  · exact .inl rfl

end Finishes

open Classical in
/-- What the worker of a stream ends with, if it ends. -/
noncomputable def verdict (w : World) (s : Nat) : Except Panic Reply :=
  if h : ∃ v n, w.Finishes s n v then h.choose else .ok .nothing

theorem Finishes.eq_verdict {N : Nat} {v : Except Panic Reply} (h : w.Finishes s N v) :
    v = w.verdict s := by
  have ends : ∃ v n, w.Finishes s n v := ⟨v, N, h⟩
  obtain ⟨n, chosen⟩ := ends.choose_spec
  rw [verdict, dif_pos ends]
  exact (chosen.unique h).2

end World

end StreamMachine
