import StreamMachine.Machine.Run

/-! Interleavings: runs in which any thread that is not blocked may take the next step, with what
each step shows. -/
namespace StreamMachine

namespace Machine

/-- Runs with the thread and the occurrences of each step. -/
inductive Interleaves (m₀ : Machine) : List (Nat × List Occurrence) → Machine → Prop
  | refl : Interleaves m₀ [] m₀
  | step {m m' : Machine} {trace : List (Nat × List Occurrence)} {seen : List Occurrence}
      (run : Interleaves m₀ trace m) (i : Nat) (last : m.stepAt? i = some (m', seen)) :
      Interleaves m₀ (trace ++ [(i, seen)]) m'

/-- Each run comes to an end: it is no longer than some bound, and while the first thread has not
ended some thread can go on. -/
def Terminates (m₀ : Machine) : Prop :=
  ∃ bound, ∀ trace m, m₀.Interleaves trace m →
    trace.length ≤ bound ∧ ((m.outcome? 0).isSome ∨ ∃ i, (m.stepAt? i).isSome)

/-- A run can be gone on with until the first thread has ended. -/
theorem Terminates.exists_ended {m₀ m : Machine} {trace : List (Nat × List Occurrence)}
    (h : m₀.Terminates) (run : m₀.Interleaves trace m) :
    ∃ trace' m' outcome, m₀.Interleaves trace' m' ∧ m'.outcome? 0 = some outcome := by
  obtain ⟨bound, h⟩ := h
  -- Each step leaves less of the bound.
  induction left : bound - trace.length generalizing trace m with
  | zero =>
    obtain ⟨short, ended | ⟨i, can⟩⟩ := h trace m run
    · obtain ⟨outcome, ended⟩ := Option.isSome_iff_exists.1 ended
      exact ⟨trace, m, outcome, run, ended⟩
    · obtain ⟨⟨m', seen⟩, step⟩ := Option.isSome_iff_exists.1 can
      have longer := (h _ _ (run.step i step)).1
      simp only [List.length_append, List.length_singleton] at longer
      omega
  | succ left ih =>
    obtain ⟨short, ended | ⟨i, can⟩⟩ := h trace m run
    · obtain ⟨outcome, ended⟩ := Option.isSome_iff_exists.1 ended
      exact ⟨trace, m, outcome, run, ended⟩
    · obtain ⟨⟨m', seen⟩, step⟩ := Option.isSome_iff_exists.1 can
      refine ih (run.step i step) ?_
      simp only [List.length_append, List.length_singleton]
      omega

/-- The threads at the given places step one after the other, if all of them can. -/
def follow (m : Machine) : List Nat → Option (Machine × List (Nat × List Occurrence))
  | [] => some (m, [])
  | i :: order => do
    let (m', seen) ← m.stepAt? i
    let (m'', trace) ← follow m' order
    some (m'', (i, seen) :: trace)

theorem Interleaves.follow {m₀ m m' : Machine} {trace trace' : List (Nat × List Occurrence)}
    (run : m₀.Interleaves trace m) {order : List Nat} (h : m.follow order = some (m', trace')) :
    m₀.Interleaves (trace ++ trace') m' := by
  induction order generalizing m trace trace' with
  | nil =>
    cases h
    rwa [List.append_nil]
  | cons i order ih =>
    simp only [Machine.follow, Option.bind_eq_bind, Option.bind_eq_some_iff] at h
    obtain ⟨⟨m₁, seen⟩, first, ⟨m₂, rest⟩, others, last⟩ := h
    cases last
    have whole := ih (run.step i first) others
    rwa [List.append_assoc] at whole

end Machine

/-- What a thread has shown, in order. -/
def shownBy (i : Nat) (trace : List (Nat × List Occurrence)) : List Occurrence :=
  (trace.filter fun e => e.1 == i).flatMap (·.2)

theorem shownBy_step (i j : Nat) (trace : List (Nat × List Occurrence)) (seen : List Occurrence) :
    shownBy i (trace ++ [(j, seen)]) = shownBy i trace ++ if j = i then seen else [] := by
  by_cases h : j = i <;> simp [shownBy, List.filter_append, h]

end StreamMachine
