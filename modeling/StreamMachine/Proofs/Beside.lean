import StreamMachine.Proofs.Await

/-! Runs told by the steps of one thread, with whatever happens beside it. -/
namespace StreamMachine

/-- A thread that can take a step, and does not wait at a gate, takes that one. -/
theorem Thread.Goes.only {m : Machine} {t : Thread} {r : Step}
    (taken : t.step? m.world m.threads.length m.outcome? = some r)
    (patient : ∀ a gate outer, t.frames ≠ .action a (.wait gate) :: outer) :
    t.Goes m r ∧ ∀ r', t.Goes m r' → r' = r := by
  refine ⟨.step taken, fun r' goes => ?_⟩
  cases goes with
  | step taken' => exact Option.some.inj (taken'.symm.trans taken)
  | expire a gate outer frames => exact (patient a gate outer frames).elim

namespace Machine

/-- What happens beside a thread. -/
inductive Aside (place : Nat) (m : Machine) : Machine → Prop
  | go (i : Nat) (apart : i ≠ place) (t : Thread) (r : Step) (found : m.threads[i]? = some t)
      (goes : t.Goes m r) : Aside place m (m.stepped i r)
  | call (command : Command) : Aside place m ⟨m.world, m.threads ++ [.ofCommand command]⟩
  | offer (s : Nat) (message : Message) (known : s < m.world.streams.length)
      (accepted : m.world.enqueue s message = .accepted s message) :
      Aside place m ⟨m.world.after (.push s message), m.threads⟩
  | revise (i : Nat) (apart : i ≠ place) (t t' : Thread) (found : m.threads[i]? = some t)
      (revised : t.Revised t') : Aside place m ⟨m.world, m.threads.set i t'⟩

/-- Runs told by the steps of one thread, whose host code keeps to what it has in mind. -/
inductive Beside (place : Nat) (m₀ : Machine) : List Pace → Machine → Prop
  | refl : Beside place m₀ [] m₀
  | own {m : Machine} {own : List Pace} (run : Beside place m₀ own m) (t : Thread) (r : Step)
      (found : m.threads[place]? = some t) (goes : t.Goes m r) :
      Beside place m₀ (own ++ [⟨t, r⟩]) (m.stepped place r)
  | aside {m m' : Machine} {own : List Pace} (run : Beside place m₀ own m)
      (move : Aside place m m') : Beside place m₀ own m'

variable {place : Nat} {m m' m₀ : Machine} {own rest : List Pace} {t : Thread} {r : Step}

namespace Aside

theorem moves (h : Aside place m m') : ∃ seen, m.Moves seen m' := by
  cases h with
  | go i _ t r found goes => exact ⟨_, moves_of_goes found goes⟩
  | call command => exact ⟨_, .call command⟩
  | offer s message known accepted => exact ⟨_, .offer s message known accepted⟩
  | revise i _ t t' found revised => exact ⟨_, .revise i t t' found revised⟩

theorem thread (h : Aside place m m') (found : m.threads[place]? = some t) :
    m'.threads[place]? = some t := by
  have inside := (List.getElem?_eq_some_iff.1 found).1
  cases h with
  | go i apart => rw [getElem?_stepped_of_ne inside (Ne.symm apart), found]
  | call => rw [List.getElem?_append_left inside, found]
  | offer => exact found
  | revise i apart => rw [List.getElem?_set_ne apart, found]

end Aside

namespace Beside

theorem reaches (run : Beside place m₀ own m) : ∃ seen, m₀.Reaches seen m := by
  induction run with
  | refl => exact ⟨_, .refl⟩
  | own _ t r found goes ih =>
    obtain ⟨seen, run⟩ := ih
    exact ⟨_, run.move (moves_of_goes found goes)⟩
  | aside _ move ih =>
    obtain ⟨seen, run⟩ := ih
    obtain ⟨new, last⟩ := move.moves
    exact ⟨_, run.move last⟩

/-- A run can be cut behind any step of its thread. -/
theorem cut {before : List Pace} {x : Pace} (run : Beside place m₀ own m)
    (split : own = before ++ x :: rest) : ∃ m', Beside place m₀ before m' ∧
      m'.threads[place]? = some x.thread ∧ x.thread.Goes m' x.step ∧
      Beside place (m'.stepped place x.step) rest m := by
  induction run generalizing rest with
  | refl => simp at split
  | @own m₁ first run t r found goes ih =>
    obtain rfl | ⟨rest', last, rfl⟩ := rest.eq_nil_or_concat'
    · obtain ⟨rfl, rfl⟩ := List.append_singleton_inj.1 split
      exact ⟨m₁, run, found, goes, .refl⟩
    · rw [← List.cons_append, ← List.append_assoc] at split
      obtain ⟨rfl, rfl⟩ := List.append_singleton_inj.1 split
      obtain ⟨m', run', found', goes', later⟩ := ih rfl
      exact ⟨m', run', found', goes', later.own t r found goes⟩
  | aside run move ih =>
    obtain ⟨m', run', found', goes', later⟩ := ih split
    exact ⟨m', run', found', goes', later.aside move⟩

/-- The machine right behind one of the steps. -/
theorem cut_at {n : Nat} (run : Beside place m₀ own m) (long : n < own.length) :
    ∃ (m' : Machine) (x : Pace), Beside place m₀ (own.take n) m' ∧
      m'.threads[place]? = some x.thread ∧ x.thread.Goes m' x.step ∧
      Beside place m₀ (own.take (n + 1)) (m'.stepped place x.step) ∧
      Beside place (m'.stepped place x.step) (own.drop (n + 1)) m := by
  have split : own = own.take n ++ own[n] :: own.drop (n + 1) := by
    rw [← List.drop_eq_getElem_cons long, List.take_append_drop]
  obtain ⟨m', first, found, goes, rest⟩ := run.cut split
  refine ⟨m', own[n], first, found, goes, ?_, rest⟩
  rw [List.take_succ_eq_append_getElem long]
  exact first.own _ _ found goes

end Beside

end Machine

end StreamMachine
