import StreamMachine.Proofs.Turn

/-! Runs of a machine. Threads may enter with any command at any moment, messages may come from
anywhere, host code may decide on the way what it does next, waits may run out, and any thread that
is not blocked may take the next step. -/
namespace StreamMachine

/-- Host code goes on with other moves or actions than those it had in mind. -/
inductive Thread.Revised (t : Thread) : Thread → Prop
  | moves (i : Instruction) (p : Phase) (old new : List Move) (outer : List Frame)
      (frames : t.frames = .phase i p old :: outer) :
      Revised t { t with frames := .phase i p new :: outer }
  | actions (a : Accessor) (old new : List Action) (outer : List Frame)
      (frames : t.frames = .callback a old :: outer) :
      Revised t { t with frames := .callback a new :: outer }

namespace Machine

inductive Moves (m : Machine) : List Occurrence → Machine → Prop
  | step (i : Nat) {m' : Machine} {seen : List Occurrence} (h : m.stepAt? i = some (m', seen)) :
      Moves m seen m'
  | expire (i : Nat) {m' : Machine} {seen : List Occurrence}
      (h : m.expireAt? i = some (m', seen)) : Moves m seen m'
  | call (command : Command) : Moves m [] ⟨m.world, m.threads ++ [.ofCommand command]⟩
  | offer (s : Nat) (message : Message) (known : s < m.world.streams.length) (accepted :
      m.world.enqueue s message = .accepted s message) :
      Moves m [.accepted s message] ⟨m.world.after (.push s message), m.threads⟩
  | revise (i : Nat) (t t' : Thread) (found : m.threads[i]? = some t) (revised : t.Revised t') :
      Moves m [] ⟨m.world, m.threads.set i t'⟩

/-- Runs with all that they show of themselves. -/
inductive Reaches (m₀ : Machine) : List Occurrence → Machine → Prop
  | refl : Reaches m₀ [] m₀
  | move {m m' : Machine} {seen new : List Occurrence} (run : Reaches m₀ seen m)
      (last : m.Moves new m') : Reaches m₀ (seen ++ new) m'

/-- The machine after a step of the thread at a place. -/
def stepped (m : Machine) (i : Nat) (r : Step) : Machine :=
  ⟨m.world.after r.deed, m.threads.set i r.thread ++ r.spawned⟩

variable {m m' : Machine} {seen : List Occurrence} {i : Nat}

theorem getElem?_stepped {t : Thread} (found : m.threads[i]? = some t) (r : Step) :
    (m.stepped i r).threads[i]? = some r.thread := by
  have inside : i < m.threads.length := (List.getElem?_eq_some_iff.1 found).1
  rw [stepped, List.getElem?_append_left (by rwa [List.length_set]), List.getElem?_set_self inside]

theorem getElem?_stepped_of_ne {j : Nat} {r : Step} (inside : j < m.threads.length) (other : j ≠ i) :
    (m.stepped i r).threads[j]? = m.threads[j]? := by
  rw [stepped, List.getElem?_append_left (by rwa [List.length_set]),
    List.getElem?_set_ne (Ne.symm other)]

theorem turn_of_stepAt? (h : m.stepAt? i = some (m', seen)) :
    ∃ t r, m.threads[i]? = some t ∧ Turn m.world t r ∧ m' = m.stepped i r ∧ seen = r.seen := by
  simp only [stepAt?, Option.bind_eq_bind, Option.bind_eq_some_iff] at h
  obtain ⟨t, found, r, step, h⟩ := h
  cases h
  exact ⟨t, r, found, Thread.turn_of_step? step, rfl, rfl⟩

theorem turn_of_expireAt? (h : m.expireAt? i = some (m', seen)) :
    ∃ t r, m.threads[i]? = some t ∧ Turn m.world t r ∧ m' = m.stepped i r ∧ seen = r.seen := by
  simp only [expireAt?, Option.bind_eq_bind, Option.bind_eq_some_iff] at h
  obtain ⟨t, found, h⟩ := h
  split at h
  next a gate outer frames control =>
    cases h
    refine ⟨t, ⟨.nothing, t.give outer (.flag false), [], []⟩, found, ?_, ?_, rfl⟩
    · exact .of_return frames trivial trivial rfl rfl (by simp)
    · simp [stepped, World.after]
  · cases h

/-- A move changes the world by one deed, if at all. -/
theorem Moves.world {new : List Occurrence} (h : m.Moves new m') :
    ∃ d, m'.world = m.world.after d := by
  cases h with
  | step i step =>
    obtain ⟨t, r, -, -, rfl, -⟩ := turn_of_stepAt? step
    exact ⟨r.deed, rfl⟩
  | expire i step =>
    obtain ⟨t, r, -, -, rfl, -⟩ := turn_of_expireAt? step
    exact ⟨r.deed, rfl⟩
  | call | revise => exact ⟨.nothing, rfl⟩
  | offer s message => exact ⟨.push s message, rfl⟩

theorem moves_of_next? (h : m.next? = some (m', seen)) : m.Moves seen m' := by
  simp only [next?, Option.orElse_eq_orElse, Option.orElse_eq_or, Option.or_eq_some_iff] at h
  obtain h | ⟨-, h⟩ := h
  · obtain ⟨i, -, hi⟩ := List.exists_of_findSome?_eq_some h
    exact .step i hi
  · obtain ⟨i, -, hi⟩ := List.exists_of_findSome?_eq_some h
    exact .expire i hi

/-- To go on with a budget is one of the ways to go on. -/
theorem Reaches.goOn {m₀ : Machine} (h : m₀.Reaches seen m) (budget : Nat) :
    m₀.Reaches (seen ++ (m.run budget).2) (m.run budget).1 := by
  induction budget generalizing m seen with
  | zero => simpa [run] using h
  | succ budget ih =>
    rw [run]
    split
    · simpa using h
    next m' new next =>
      rw [← List.append_assoc]
      exact ih (h.move (moves_of_next? next))

end Machine

/-- A message of a category whose instruction makes the given moves. -/
def Message.probe (category : StreamCategory) (infer compute : List Move) : Message :=
  ⟨⟨"probe", 0, category, .fixed category infer compute⟩, none⟩

end StreamMachine
