import Mathlib.Algebra.BigOperators.Fin
import StreamMachine.Proofs.Life

/-! What calls return, against what streams count. A drain keeps its own count and returns it, or
loses it as it unwinds; a schedule adds up what the drains return that it has called for. Over any
run, nested calls and panics included, these values account for all instructions that have completed,
each of them once. -/
namespace StreamMachine

/-- A call to drain a stream, and whether a schedule has made it. -/
structure DrainCall where
  stream : Nat
  scheduled : Bool
  deriving DecidableEq

def calledBySchedule : List Frame → Bool
  | .schedule .. :: _ => true
  | _ => false

/-- The innermost call of a thread, if it is one to drain a stream, with what that has run so far. -/
def Thread.drainCall? (t : Thread) : Option (DrainCall × Nat) :=
  match t.frames with
  | .drain s _ e :: outer => some (⟨s, calledBySchedule outer⟩, e)
  | _ => none

/-- A thread and its next step. -/
structure Pace where
  thread : Thread
  step : Step

namespace Pace

/-- The value that a call to drain a stream returns here. -/
def returned? (which : DrainCall → Bool) (x : Pace) : Option Nat :=
  match x.thread.drainCall?, x.step.thread.control with
  | some (call, _), .reply reply => if which call then some reply.toCount else none
  | _, _ => none

/-- The instructions that a call to drain a stream has completed when it unwinds here. -/
def unwound? (which : DrainCall → Bool) (x : Pace) : Option Nat :=
  match x.thread.drainCall?, x.thread.control with
  | some (call, e), .unwind _ => if which call then some e else none
  | _, _ => none

/-- In a call to drain a stream an instruction completes here. -/
def completes (which : DrainCall → Bool) (x : Pace) : Bool :=
  match x.thread.drainCall? with
  | some (call, _) => which call && decide (0 < completions call.stream x.step.seen)
  | none => false

/-- The value that a schedule returns here. -/
def scheduled? (x : Pace) : Option Nat :=
  match x.thread.frames, x.step.thread.control with
  | .schedule .. :: _, .reply reply => some reply.toCount
  | _, _ => none

end Pace

/-- The values that calls to drain have returned. -/
def returnedIn (which : DrainCall → Bool) (trace : List Pace) : List Nat :=
  trace.filterMap (·.returned? which)

/-- The instructions that each of the calls has completed that have unwound. -/
def unwoundIn (which : DrainCall → Bool) (trace : List Pace) : List Nat :=
  trace.filterMap (·.unwound? which)

/-- The instructions that have completed in calls to drain. -/
def completedIn (which : DrainCall → Bool) (trace : List Pace) : Nat := trace.countP (·.completes which)

/-- The values that schedules have returned. -/
def scheduledIn (trace : List Pace) : List Nat := trace.filterMap (·.scheduled?)

/-- How a thread goes on: by a step, or by giving up its wait. -/
inductive Thread.Goes (m : Machine) (t : Thread) : Step → Prop
  | step {r : Step} (taken : t.step? m.world m.threads.length m.outcome? = some r) : Goes m t r
  | expire (a : Accessor) (gate : String) (outer : List Frame)
      (frames : t.frames = .action a (.wait gate) :: outer) (run : t.control = .run) :
      Goes m t ⟨.nothing, t.give outer (.flag false), [], []⟩

namespace Machine

/-- Runs as in `Reaches`, with all that the threads have gone through. -/
inductive Recounts (m₀ : Machine) : List Pace → List Occurrence → Machine → Prop
  | refl : Recounts m₀ [] [] m₀
  | go {m : Machine} {trace : List Pace} {seen : List Occurrence} (run : Recounts m₀ trace seen m)
      (i : Nat) (t : Thread) (r : Step) (found : m.threads[i]? = some t) (goes : t.Goes m r) :
      Recounts m₀ (trace ++ [⟨t, r⟩]) (seen ++ r.seen) (m.stepped i r)
  | call {m : Machine} {trace : List Pace} {seen : List Occurrence} (run : Recounts m₀ trace seen m)
      (command : Command) : Recounts m₀ trace seen ⟨m.world, m.threads ++ [.ofCommand command]⟩
  | offer {m : Machine} {trace : List Pace} {seen : List Occurrence} (run : Recounts m₀ trace seen m)
      (s : Nat) (message : Message) (known : s < m.world.streams.length)
      (accepted : m.world.enqueue s message = .accepted s message) :
      Recounts m₀ trace (seen ++ [.accepted s message])
        ⟨m.world.after (.push s message), m.threads⟩
  | revise {m : Machine} {trace : List Pace} {seen : List Occurrence}
      (run : Recounts m₀ trace seen m) (i : Nat) (t t' : Thread) (found : m.threads[i]? = some t)
      (revised : t.Revised t') : Recounts m₀ trace seen ⟨m.world, m.threads.set i t'⟩

variable {m m₀ : Machine} {trace : List Pace} {seen : List Occurrence}

theorem moves_of_goes {i : Nat} {t : Thread} {r : Step} (found : m.threads[i]? = some t)
    (goes : t.Goes m r) : m.Moves r.seen (m.stepped i r) := by
  cases goes with
  | step taken =>
    refine .step i ?_
    simp [stepAt?, found, taken, stepped]
  | expire a gate outer frames run =>
    refine .expire i ?_
    simp [expireAt?, found, frames, run, stepped]

theorem Recounts.reaches (run : m₀.Recounts trace seen m) : m₀.Reaches seen m := by
  induction run with
  | refl => exact .refl
  | go _ i t r found goes ih => exact ih.move (moves_of_goes found goes)
  | call _ command ih => simpa using ih.move (.call command)
  | offer _ s message known accepted ih => exact ih.move (.offer s message known accepted)
  | revise _ i t t' found revised ih => simpa using ih.move (.revise i t t' found revised)

/-- The threads at the given places step one after the other; one that cannot is passed over. -/
def trail (m : Machine) : List Nat → List Pace × Machine
  | [] => ([], m)
  | i :: order =>
    match m.threads[i]? with
    | none => trail m order
    | some t =>
      match t.step? m.world m.threads.length m.outcome? with
      | none => trail m order
      | some r =>
        let (trace, m') := trail (m.stepped i r) order
        (⟨t, r⟩ :: trace, m')

theorem Recounts.trail (run : m₀.Recounts trace seen m) (order : List Nat) :
    m₀.Recounts (trace ++ (m.trail order).1)
      (seen ++ (m.trail order).1.flatMap (·.step.seen)) (m.trail order).2 := by
  induction order generalizing m trace seen with
  | nil => simpa [Machine.trail] using run
  | cons i order ih =>
    rw [Machine.trail]
    split
    · exact ih run
    next t found =>
      split
      · exact ih run
      next r taken => simpa using ih (run.go i t r found (.step taken))

/-- Every run can be told in this way. -/
theorem Reaches.recounts (run : m₀.Reaches seen m) : ∃ trace, m₀.Recounts trace seen m := by
  induction run with
  | refl => exact ⟨[], .refl⟩
  | move _ last ih =>
    obtain ⟨trace, told⟩ := ih
    cases last with
    | step i step =>
      obtain ⟨t, r, found, taken, rfl, rfl⟩ := step_of_stepAt? step
      exact ⟨_, told.go i t r found (.step taken)⟩
    | expire i step =>
      simp only [expireAt?, Option.bind_eq_bind, Option.bind_eq_some_iff] at step
      obtain ⟨t, found, step⟩ := step
      split at step
      next a gate outer frames control =>
        cases step
        have last := told.go i t _ found (.expire a gate outer frames control)
        exact ⟨_, by simpa [stepped] using last⟩
      · cases step
    | call command =>
      rw [List.append_nil]
      exact ⟨_, told.call command⟩
    | offer s message known accepted => exact ⟨_, told.offer s message known accepted⟩
    | revise i t t' found revised =>
      rw [List.append_nil]
      exact ⟨_, told.revise i t t' found revised⟩

end Machine

theorem Thread.Goes.turn_stride {m : Machine} {t : Thread} {r : Step} (h : t.Goes m r) :
    Turn m.world t r ∧ Stride m.world t r := by
  cases h with
  | step taken => exact ⟨turn_of_step? taken, stride_of_step? taken⟩
  | expire a gate outer frames run =>
    exact ⟨.of_return frames trivial trivial rfl rfl (by simp),
      .of_return frames trivial rfl (by simp)⟩

section Weights

/-- A weight of threads that a step changes by what it gains and what it spends. -/
structure Weighs (weight : Thread → Nat) (gain spend : Pace → Nat) (good : Pace → Prop) :
    Prop where
  step : ∀ w t r, Nested w t.frames → Turn w t r → Stride w t r → good ⟨t, r⟩ →
    weight r.thread + spend ⟨t, r⟩ = weight t + gain ⟨t, r⟩
  worker : ∀ s, weight (.worker s) = 0
  command : ∀ c, weight (.ofCommand c) = 0
  revised : ∀ t x, t.Revised x → weight x = weight t

def totalWeight (weight : Thread → Nat) (threads : List Thread) : Nat := (threads.map weight).sum

variable {weight : Thread → Nat} {gain spend : Pace → Nat} {good : Pace → Prop}
  {threads : List Thread} {i : Nat} {t : Thread}

theorem totalWeight_append (weight : Thread → Nat) (xs ys : List Thread) :
    totalWeight weight (xs ++ ys) = totalWeight weight xs + totalWeight weight ys := by
  simp [totalWeight]

theorem totalWeight_set (weight : Thread → Nat) (found : threads[i]? = some t) (x : Thread) :
    totalWeight weight (threads.set i x) + weight t = totalWeight weight threads + weight x := by
  induction threads generalizing i with
  | nil => cases found
  | cons y threads ih =>
    cases i with
    | zero =>
      cases found
      simp only [totalWeight, List.set_cons_zero, List.map_cons, List.sum_cons]
      omega
    | succ i =>
      have := ih found
      simp only [totalWeight, List.set_cons_succ, List.map_cons, List.sum_cons] at this ⊢
      omega

theorem totalWeight_workers (h : ∀ s, weight (.worker s) = 0)
    (workers : ∀ x ∈ threads, ∃ s, x = .worker s) : totalWeight weight threads = 0 := by
  refine List.sum_eq_zero fun n mem => ?_
  obtain ⟨x, hx, rfl⟩ := List.mem_map.1 mem
  obtain ⟨s, rfl⟩ := workers x hx
  exact h s

/-- What a run ends with and what it has spent is what it began with and what it has gained. -/
theorem Weighs.balance (h : Weighs weight gain spend good) {m₀ m : Machine} {trace : List Pace}
    {seen : List Occurrence} (run : m₀.Recounts trace seen m) (orderly : m₀.Orderly)
    (all : ∀ x ∈ trace, good x) :
    totalWeight weight m.threads + (trace.map spend).sum =
      totalWeight weight m₀.threads + (trace.map gain).sum := by
  induction run with
  | refl => rfl
  | @go m trace seen run i t r found goes ih =>
    have before := ih fun x hx => all x (List.mem_append_left _ hx)
    have nested := (run.reaches.orderly orderly).nested t (List.mem_of_getElem? found)
    have step := h.step m.world t r nested goes.turn_stride.1 goes.turn_stride.2 (all _ (by simp))
    have set := totalWeight_set weight found r.thread
    rw [Machine.stepped, totalWeight_append,
      totalWeight_workers h.worker goes.turn_stride.1.spawned]
    simp only [List.map_append, List.sum_append, List.map_singleton, List.sum_singleton]
    omega
  | call run command ih =>
    rw [totalWeight_append]
    simpa [totalWeight, h.command] using ih all
  | offer run s message known accepted ih => exact ih all
  | revise run i t t' found revised ih =>
    have set := totalWeight_set weight found t'
    have same := h.revised t t' revised
    have before := ih all
    dsimp only
    omega

end Weights

/-- The instructions that calls to drain on a stack have run so far. -/
def drainWeight (which : DrainCall → Bool) : List Frame → Nat
  | [] => 0
  | .drain s _ e :: outer =>
    (if which ⟨s, calledBySchedule outer⟩ then e else 0) + drainWeight which outer
  | _ :: outer => drainWeight which outer

/-- What schedules on a stack have been told so far. -/
def scheduleWeight : List Frame → Nat
  | [] => 0
  | .schedule _ total :: outer => total + scheduleWeight outer
  | _ :: outer => scheduleWeight outer

/-- What the schedules on the stack of a thread have been told or are being told. -/
def Thread.scheduleWeight (t : Thread) : Nat :=
  StreamMachine.scheduleWeight t.frames + match t.frames, t.control with
    | .schedule .. :: _, .reply reply => reply.toCount
    | _, _ => 0

/-- The instructions that calls to drain have run so far which are still under way. -/
def Machine.underWay (which : DrainCall → Bool) (m : Machine) : Nat :=
  totalWeight (fun t => drainWeight which t.frames) m.threads

section Drains

variable {which : DrainCall → Bool} {w : World} {t : Thread} {r : Step} {outer : List Frame}

theorem drainWeight_cons {f : Frame} (h : ∀ s p e, f ≠ .drain s p e) :
    drainWeight which (f :: outer) = drainWeight which outer := by
  cases f <;> first | rfl | exact (h _ _ _ rfl).elim

theorem drainWeight_append {added : List Frame} (h : ∀ f ∈ added, f.Calm) :
    drainWeight which (added ++ outer) = drainWeight which outer := by
  induction added with
  | nil => rfl
  | cons f added ih =>
    have calm := h f List.mem_cons_self
    rw [List.cons_append, drainWeight_cons (by rintro s p e rfl; exact calm),
      ih fun g hg => h g (List.mem_cons_of_mem f hg)]

/-- A thread that does not drain right now keeps what its drains have run. -/
theorem drains_of_same {f : Frame} (frames : t.frames = f :: outer) (other : ∀ s p e, f ≠ .drain s p e)
    (same : drainWeight which r.thread.frames = drainWeight which outer) :
    drainWeight which r.thread.frames +
        ((Pace.returned? which ⟨t, r⟩).getD 0 + (Pace.unwound? which ⟨t, r⟩).getD 0) =
      drainWeight which t.frames + (Pace.completes which ⟨t, r⟩).toNat := by
  have none : t.drainCall? = none := by
    rw [Thread.drainCall?, frames]
    cases f <;> first | rfl | exact (other _ _ _ rfl).elim
  rw [same, frames, drainWeight_cons other]
  simp [Pace.returned?, Pace.unwound?, Pace.completes, none]

/-- A call to drain adds up what completes in it, until it returns or unwinds. -/
theorem Turn.drains (h : Turn w t r) : drainWeight which r.thread.frames +
      ((Pace.returned? which ⟨t, r⟩).getD 0 + (Pace.unwound? which ⟨t, r⟩).getD 0) =
    drainWeight which t.frames + (Pace.completes which ⟨t, r⟩).toNat := by
  have apart {f : Frame} (hf : f.Calm) (s : Nat) (p : DrainPoint) (e : Nat) : f ≠ .drain s p e := by
    rintro rfl
    exact hf
  cases h with
  | calm frame outer added frames calm deed stack above =>
    exact drains_of_same frames (apart calm) (by rw [stack, drainWeight_append above])
  | push frame outer s m reply n frames calm => exact drains_of_same frames (apart calm) rfl
  | drain frame outer added s frames calm above =>
    exact drains_of_same frames (apart calm)
      (by simp [Thread.goto, drainWeight, drainWeight_append above])
  | enlist frame outer c frames calm => exact drains_of_same frames (apart calm) rfl
  | dismiss x saved outer frames stack | finish x i phases outer seen frames stack =>
    exact drains_of_same frames (by simp) (by rw [stack])
  | proceed i i' phases phases' outer added seen frames _ _ above =>
    exact drains_of_same frames (by simp)
      (by rw [Thread.goto, drainWeight_append above, drainWeight_cons (by simp)])
  | busy s e outer frames run | rest s e outer frames run =>
    simp only [Pace.returned?, Pace.unwound?, Pace.completes, Thread.drainCall?, frames, run,
      Thread.give, drainWeight]
    split <;> simp [completions, Reply.toCount, Nat.add_comm]
  | seize s e outer frames run | dry s e p outer frames run | yield s e outer frames run
  | again s e outer frames run | start s e p outer m queue frames run =>
    simp [Pace.returned?, Pace.unwound?, Pace.completes, Thread.drainCall?, frames, run, Thread.goto,
      drainWeight, completions]
  | complete s e p outer reply frames control =>
    simp only [Pace.returned?, Pace.unwound?, Pace.completes, Thread.drainCall?, frames, control,
      Thread.goto, drainWeight]
    split <;> simp_all [completions]
    omega
  | abandon s e p outer panic frames control =>
    simp only [Pace.returned?, Pace.unwound?, Pace.completes, Thread.drainCall?, frames, control,
      Thread.fail, drainWeight]
    split <;> simp [completions, Nat.add_comm]

theorem weighs_drains (which : DrainCall → Bool) :
    Weighs (fun t => drainWeight which t.frames) (fun x => (x.completes which).toNat)
      (fun x => (x.returned? which).getD 0 + (x.unwound? which).getD 0) fun _ => True where
  step _ _ _ _ turn _ _ := turn.drains
  worker s := by simp [Thread.worker, drainWeight]
  command c := rfl
  revised t x revised := by
    cases revised with
    | moves i p old new outer frames | actions a old new outer frames =>
      rw [frames]
      rfl

end Drains

section Schedules

variable {w : World} {t : Thread} {r : Step} {outer : List Frame}

/-- Frames that are neither a drain nor a schedule. -/
def Frame.Aside : Frame → Prop
  | .drain .. | .schedule .. => False
  | _ => True

theorem scheduleWeight_cons {f : Frame} (h : f.Aside) :
    scheduleWeight (f :: outer) = scheduleWeight outer := by
  cases f <;> first | rfl | exact h.elim

theorem Thread.scheduleWeight_eq {f : Frame} (frames : t.frames = f :: outer) (h : f.Aside) :
    t.scheduleWeight = StreamMachine.scheduleWeight outer := by
  rw [Thread.scheduleWeight, frames, scheduleWeight_cons h]
  cases f <;> first | rfl | exact h.elim

theorem Frame.Open.aside {f : Frame} (h : f.Open) : f.Aside := by
  cases f <;> trivial

/-- Fresh frames, if any, on top of host code. -/
theorem Thread.scheduleWeight_of_fresh (added : List Frame) (stack : t.frames = added ++ outer)
    (fresh : ∀ f ∈ added, f.Fresh) (run : added ≠ [] → t.control = .run)
    (host : ∀ g ∈ outer.head?, g.Aside) :
    t.scheduleWeight = StreamMachine.scheduleWeight outer := by
  cases added with
  | nil =>
    cases outer with
    | nil => simp [Thread.scheduleWeight, stack, StreamMachine.scheduleWeight]
    | cons g rest => rw [scheduleWeight_eq stack (host g rfl), scheduleWeight_cons (host g rfl)]
  | cons f added =>
    have none {added : List Frame} (fresh : ∀ f ∈ added, f.Fresh) :
        StreamMachine.scheduleWeight (added ++ outer) = StreamMachine.scheduleWeight outer := by
      induction added with
      | nil => rfl
      | cons f added ih =>
        have total := fresh f List.mem_cons_self
        have rest := ih fun g hg => fresh g (List.mem_cons_of_mem f hg)
        cases f <;> simp_all [StreamMachine.scheduleWeight, Frame.Fresh]
    rw [Thread.scheduleWeight, stack, none fresh, run (List.cons_ne_nil f added)]
    cases f <;> rfl

/-- A thread away from drains and schedules tells none of them anything. -/
theorem schedules_of_same {f : Frame} (frames : t.frames = f :: outer) (h : f.Aside)
    (same : r.thread.scheduleWeight = scheduleWeight outer) :
    r.thread.scheduleWeight + (Pace.scheduled? ⟨t, r⟩).getD 0 =
      t.scheduleWeight + (Pace.returned? (·.scheduled) ⟨t, r⟩).getD 0 := by
  have none : Pace.scheduled? ⟨t, r⟩ = none ∧ t.drainCall? = none := by
    rw [Pace.scheduled?, Thread.drainCall?, frames]
    cases f <;> first | exact ⟨rfl, rfl⟩ | exact h.elim
  rw [same, Thread.scheduleWeight_eq frames h, none.1, Pace.returned?, none.2]

/-- A drain that goes on tells nobody. -/
theorem schedules_of_drain {s e : Nat} {p : DrainPoint} (added : List Frame)
    (frames : t.frames = .drain s p e :: outer) (stack : r.thread.frames = added ++ outer)
    (aside : ∀ f ∈ added, ∀ left total, f ≠ .schedule left total)
    (quiet : ∀ reply, r.thread.control ≠ .reply reply) :
    r.thread.scheduleWeight + (Pace.scheduled? ⟨t, r⟩).getD 0 =
      t.scheduleWeight + (Pace.returned? (·.scheduled) ⟨t, r⟩).getD 0 := by
  have none {added : List Frame} (aside : ∀ f ∈ added, ∀ left total, f ≠ .schedule left total) :
      scheduleWeight (added ++ outer) = scheduleWeight outer := by
    induction added with
    | nil => rfl
    | cons f added ih =>
      have rest := ih fun g hg => aside g (List.mem_cons_of_mem f hg)
      cases f with
      | schedule left total => exact (aside _ List.mem_cons_self left total rfl).elim
      | _ => exact rest
  have silent : Pace.returned? (·.scheduled) ⟨t, r⟩ = .none := by
    rw [Pace.returned?]
    cases control : r.thread.control with
    | reply reply => exact (quiet reply control).elim
    | run | unwind => cases t.drainCall? <;> rfl
  have transit : r.thread.scheduleWeight = scheduleWeight outer := by
    rw [Thread.scheduleWeight, stack, none aside]
    cases control : r.thread.control with
    | reply reply => exact (quiet reply control).elim
    | run | unwind => cases added ++ outer with
      | nil => rfl
      | cons f rest => cases f <;> rfl
  rw [silent, transit, Thread.scheduleWeight, frames, Pace.scheduled?]
  simp [frames, scheduleWeight]

/-- A drain that a schedule has called for tells it what it returns. -/
theorem schedules_of_return {s e : Nat} {p : DrainPoint} {d : Deed} {seen : List Occurrence}
    (frames : t.frames = .drain s p e :: outer) :
    (t.give outer (.count e)).scheduleWeight +
        (Pace.scheduled? ⟨t, ⟨d, t.give outer (.count e), [], seen⟩⟩).getD 0 =
      t.scheduleWeight +
        (Pace.returned? (·.scheduled) ⟨t, ⟨d, t.give outer (.count e), [], seen⟩⟩).getD 0 := by
  simp only [Thread.scheduleWeight, Pace.scheduled?, Pace.returned?, Thread.drainCall?, Thread.give,
    frames, scheduleWeight]
  cases outer with
  | nil => rfl
  | cons f rest => cases f <;> simp [calledBySchedule, Reply.toCount]

theorem Turn.schedules {s e : Nat} {p : DrainPoint} (h : Turn w t r)
    (frames : t.frames = .drain s p e :: outer) :
    r.thread.scheduleWeight + (Pace.scheduled? ⟨t, r⟩).getD 0 =
      t.scheduleWeight + (Pace.returned? (·.scheduled) ⟨t, r⟩).getD 0 := by
  cases h with
  | calm frame rest added frames' hf | push frame rest _ _ _ _ frames' hf
  | drain frame rest added _ frames' hf | enlist frame rest _ frames' hf =>
    rw [frames] at frames'
    cases frames'
    exact hf.elim
  | dismiss x saved rest frames' | proceed i i' phases phases' rest added seen frames'
  | finish x i phases rest seen frames' =>
    rw [frames] at frames'
    cases frames'
  | busy s e rest frames' | rest s e rest frames' => exact schedules_of_return frames'
  | seize s e rest frames' | dry s e p rest frames' | yield s e rest frames'
  | again s e rest frames' | complete s e p rest reply frames' =>
    exact schedules_of_drain [.drain s _ _] frames' rfl (by simp) (by simp [Thread.goto])
  | start s e p rest message queue frames' =>
    exact schedules_of_drain [.run ⟨message, s, .created⟩ _, .drain s _ _] frames' rfl
      (by simp) (by simp [Thread.goto])
  | abandon s e p rest panic frames' =>
    exact schedules_of_drain [] frames' rfl (by simp) (by simp [Thread.fail])

/-- A schedule adds up what its drains return, until it returns that itself. -/
theorem Stride.schedules (h : Stride w t r) (ht : Nested w t.frames)
    (calm : ∀ panic, t.control ≠ .unwind panic) :
    r.thread.scheduleWeight + (Pace.scheduled? ⟨t, r⟩).getD 0 =
      t.scheduleWeight + (Pace.returned? (·.scheduled) ⟨t, r⟩).getD 0 := by
  cases h with
  | plain frame outer added frames plain stack fresh run sits =>
    rw [frames] at ht
    have aside : frame.Aside := by cases frame <;> trivial
    exact schedules_of_same frames aside (Thread.scheduleWeight_of_fresh added stack fresh run
      fun g hg => (ht.open_below plain g hg).aside)
  | move i p old new outer added frames stack fresh run =>
    have next : r.thread.scheduleWeight = scheduleWeight (.phase i p new :: outer) :=
      Thread.scheduleWeight_of_fresh added stack fresh run (by simp [Frame.Aside])
    exact schedules_of_same frames trivial next
  | returned i p outer frames | aborted i p moves outer panic frames =>
    rw [frames] at ht
    obtain ⟨⟨phases, rest, rfl⟩, -⟩ := ht
    exact schedules_of_same frames trivial rfl
  | begin i p phases outer frames => exact schedules_of_same frames trivial rfl
  | advance i p phases outer reply frames => exact schedules_of_same frames trivial rfl
  | refuse i p phases outer v frames | done i outer reply frames | fall i phases outer panic frames =>
    rw [frames] at ht
    obtain ⟨⟨-, -, e, rest, rfl⟩, -⟩ := ht
    exact schedules_of_same frames trivial rfl
  | visit s left total outer frames run =>
    simp [Thread.scheduleWeight, Pace.scheduled?, Pace.returned?, Thread.drainCall?, Thread.goto,
      frames, run, scheduleWeight]
  | collect left total outer reply frames control =>
    simp [Thread.scheduleWeight, Pace.scheduled?, Pace.returned?, Thread.drainCall?, Thread.goto,
      frames, control, scheduleWeight]
    omega
  | sum total outer frames run =>
    rw [frames] at ht
    have next : (t.give outer (.count total)).scheduleWeight = scheduleWeight outer :=
      Thread.scheduleWeight_of_fresh [] rfl (by simp) (by simp) fun g hg => (ht.1.2 g hg).aside
    rw [next]
    simp [Thread.scheduleWeight, Pace.scheduled?, Pace.returned?, Thread.drainCall?, Thread.give,
      frames, run, scheduleWeight, Reply.toCount, Nat.add_comm]
  | forsake left total outer panic frames control => exact (calm panic control).elim
  | drain s p e outer frames turn => exact turn.schedules frames

theorem weighs_schedules : Weighs Thread.scheduleWeight
    (fun x => (x.returned? (·.scheduled)).getD 0) (fun x => (x.scheduled?).getD 0)
    fun x => ∀ panic, x.thread.control ≠ .unwind panic where
  step _ _ _ nested _ stride calm := stride.schedules nested calm
  worker s := rfl
  command c := rfl
  revised t x revised := by
    cases revised with
    | moves i p old new outer frames | actions a old new outer frames =>
      rw [Thread.scheduleWeight_eq frames trivial]
      rfl

end Schedules

theorem sum_filterMap (f : Pace → Option Nat) (trace : List Pace) :
    (trace.filterMap f).sum = (trace.map fun x => (f x).getD 0).sum := by
  induction trace with
  | nil => rfl
  | cons x trace ih =>
    cases value : f x <;> simp [value, ih]

theorem completedIn_eq_sum (which : DrainCall → Bool) (trace : List Pace) :
    completedIn which trace = (trace.map fun x => (x.completes which).toNat).sum := by
  induction trace with
  | nil => rfl
  | cons x trace ih =>
    rw [completedIn] at ih ⊢
    cases value : x.completes which <;> simp [value, ih, Nat.add_comm]

theorem completedIn_append (which : DrainCall → Bool) (xs ys : List Pace) :
    completedIn which (xs ++ ys) = completedIn which xs + completedIn which ys := List.countP_append

/-- Whatever completes does so in a call that a schedule has made or in one made directly. -/
theorem completedIn_split (trace : List Pace) : completedIn (fun _ => true) trace =
    completedIn (·.scheduled) trace + completedIn (!·.scheduled) trace := by
  rw [completedIn_eq_sum, completedIn_eq_sum, completedIn_eq_sum, ← List.sum_map_add]
  congr 1
  refine List.map_congr_left fun x _ => ?_
  rw [Pace.completes, Pace.completes, Pace.completes]
  cases x.thread.drainCall? with
  | none => rfl
  | some found =>
    obtain ⟨⟨s, scheduled⟩, e⟩ := found
    cases scheduled <;> simp

/-- And on one of the streams. -/
theorem sum_completedIn {n : Nat} {trace : List Pace}
    (known : ∀ x ∈ trace, ∀ call e, x.thread.drainCall? = some (call, e) → call.stream < n) :
    ∑ s ∈ Finset.range n, completedIn (·.stream = s) trace = completedIn (fun _ => true) trace := by
  induction trace with
  | nil => simp [completedIn]
  | cons x trace ih =>
    have rest := ih fun y hy => known y (List.mem_cons_of_mem x hy)
    have one : ∑ s ∈ Finset.range n, completedIn (·.stream = s) [x] =
        completedIn (fun _ => true) [x] := by
      simp only [completedIn, List.countP_singleton, Pace.completes]
      cases found : x.thread.drainCall? with
      | none => simp
      | some value =>
        obtain ⟨call, e⟩ := value
        have inside := known x List.mem_cons_self call e found
        by_cases some : 0 < completions call.stream x.step.seen <;> simp [some, inside, Finset.sum_ite_eq]
    rw [← List.singleton_append, completedIn_append, ← rest, ← one, ← Finset.sum_add_distrib]
    exact Finset.sum_congr rfl fun s _ => completedIn_append _ _ _

theorem World.completedAt_create {config : MachineConfig} {registry : Registry} {w : World}
    (created : World.create config registry = .ok w) (s : Nat) : w.completedAt s = 0 := by
  simp only [World.create] at created
  split at created <;> cases created
  simp only [World.completedAt, List.getElem?_map]
  cases config.streams[s]? <;> rfl

theorem Turn.completions_eq {w : World} {t : Thread} {r : Step} (h : Turn w t r) (s : Nat) :
    completions s r.seen = (Pace.completes (·.stream = s) ⟨t, r⟩).toNat := by
  have quiet (none : ∀ i, completions i r.seen = 0) :
      completions s r.seen = (Pace.completes (·.stream = s) ⟨t, r⟩).toNat := by
    rw [none, Pace.completes]
    cases t.drainCall? <;> simp [none]
  cases h with
  | complete i e p outer reply frames control =>
    by_cases own : i = s <;>
      simp [Pace.completes, Thread.drainCall?, frames, completions, own]
  | calm _ _ _ _ _ _ _ _ _ _ silent | proceed _ _ _ _ _ _ _ _ _ _ _ silent
  | finish _ _ _ _ _ _ _ _ _ silent => exact quiet fun i => (completions_calm silent i).1
  | _ => exact quiet fun i => by simp [completions, Thread.notice]

namespace Machine

variable {m m₀ : Machine} {trace : List Pace} {past seen : List Occurrence}

theorem Reaches.trans {m₁ : Machine} (first : m₀.Reaches past m₁) (second : m₁.Reaches seen m) :
    m₀.Reaches (past ++ seen) m := by
  induction second with
  | refl => simpa using first
  | move _ last ih =>
    rw [← List.append_assoc]
    exact ih.move last

theorem Reaches.length_streams (run : m₀.Reaches seen m) :
    m.world.streams.length = m₀.world.streams.length := by
  induction run with
  | refl => rfl
  | move _ last ih =>
    obtain ⟨d, hd⟩ := last.world
    rw [hd, World.length_streams_after, ih]

theorem Recounts.known (run : m₀.Recounts trace seen m) (orderly : m₀.Orderly) : ∀ x ∈ trace,
    ∀ call e, x.thread.drainCall? = some (call, e) → call.stream < m₀.world.streams.length := by
  induction run with
  | refl => simp
  | go run i t r found goes ih =>
    intro x hx call e drains
    rcases List.mem_append.1 hx with hx | hx
    · exact ih x hx call e drains
    · obtain rfl := List.mem_singleton.1 hx
      have nested := (run.reaches.orderly orderly).nested t (List.mem_of_getElem? found)
      rw [Thread.drainCall?] at drains
      split at drains
      next s p e outer frames =>
        cases drains
        rw [frames] at nested
        rw [← run.reaches.length_streams]
        exact nested.1.1
      · cases drains
  | call _ _ ih | offer _ _ _ _ _ ih | revise _ _ _ _ _ _ ih => exact ih

/-- The counter of a stream goes up by what completes on it. -/
theorem Recounts.completedAt (run : m₀.Recounts trace seen m) {s : Nat}
    (known : s < m₀.world.streams.length) :
    m.world.completedAt s = m₀.world.completedAt s + completedIn (·.stream = s) trace := by
  induction run with
  | refl => rfl
  | @go m trace seen run i t r found goes ih =>
    have turn := goes.turn_stride.1
    rw [stepped, turn.completedAt (by rwa [run.reaches.length_streams]), turn.completions_eq, ih,
      completedIn_append, completedIn_eq_sum _ [_], Nat.add_assoc]
    simp
  | call _ _ ih | revise _ _ _ _ _ _ ih => exact ih
  | offer _ i message _ _ ih => rw [← ih, World.completedAt_after (by simp)]

/-- In host code the drains that execute are as many as the instructions in flight. -/
theorem Guarded.executes_eq_inFlight (h : m.Guarded seen) (host : m.InHostCode) (s : Nat) :
    countFrames (Frame.executes s) m.threads = m.inFlight s := by
  have same : ∀ t ∈ m.threads, t.frames.countP (Frame.executes s) =
      t.frames.countP (Frame.runs s) := by
    intro t ht
    cases h.shaped t ht with
    | host stack => exact (stack.counts s).2
    | loop i e p outer frames | ending i e span outer spans frames =>
      exact (host t ht (.drain i _ e) (by rw [frames]; rfl)).elim
  exact (countFrames_le fun t ht => (same t ht).le).antisymm (countFrames_le fun t ht => (same t ht).ge)

/-- What a stream has started has completed, or has panicked, or is in flight. -/
theorem Guarded.length_started (h : m.Guarded seen) (host : m.InHostCode) (s : Nat) :
    (startedOn s seen).length = completions s seen + abandons s seen + m.inFlight s := by
  have count := count_turns (h.turns s)
  rw [count_true_turns, count_false_turns, ← h.last s, h.executes_eq_inFlight host] at count
  simpa using count

/-- All calls have come to an end. -/
def Ended (m : Machine) : Prop := ∀ t ∈ m.threads, t.frames = []

theorem Ended.totalWeight_eq_zero (h : m.Ended) {weight : Thread → Nat}
    (none : ∀ t : Thread, t.frames = [] → weight t = 0) : totalWeight weight m.threads = 0 := by
  refine List.sum_eq_zero fun n mem => ?_
  obtain ⟨t, ht, rfl⟩ := List.mem_map.1 mem
  exact none t (h t ht)

theorem Ended.underWay_eq_zero (h : m.Ended) (which : DrainCall → Bool) : m.underWay which = 0 :=
  h.totalWeight_eq_zero fun t none => by rw [none]; rfl

theorem Ended.schedules_eq_zero (h : m.Ended) :
    totalWeight Thread.scheduleWeight m.threads = 0 :=
  h.totalWeight_eq_zero fun t none => by rw [Thread.scheduleWeight, none]; rfl

/-- What completes in calls to drain is returned, or lost by a panic, or still under way. -/
theorem Recounts.drains (run : m₀.Recounts trace seen m) (orderly : m₀.Orderly)
    (which : DrainCall → Bool) : m.underWay which + ((returnedIn which trace).sum +
      (unwoundIn which trace).sum) = m₀.underWay which + completedIn which trace := by
  have balance := (weighs_drains which).balance run orderly (by simp)
  rw [List.sum_map_add, ← sum_filterMap, ← sum_filterMap, ← completedIn_eq_sum] at balance
  exact balance

/-- No thread has unwound through anything. -/
def PanicFree (trace : List Pace) : Prop := ∀ x ∈ trace, ∀ panic, x.thread.control ≠ .unwind panic

theorem PanicFree.sum_unwoundIn (calm : PanicFree trace) (which : DrainCall → Bool) :
    (unwoundIn which trace).sum = 0 := by
  have quiet : ∀ x ∈ trace, x.unwound? which = none := by
    intro x hx
    rw [Pace.unwound?]
    cases control : x.thread.control with
    | unwind panic => exact (calm x hx panic control).elim
    | run | reply => cases x.thread.drainCall? <;> rfl
  rw [unwoundIn, List.filterMap_eq_nil_iff.2 quiet]
  rfl

/-- Without a panic, what calls to drain return is what completes in them. -/
theorem PanicFree.sum_returnedIn (calm : PanicFree trace) (run : m₀.Recounts trace seen m)
    (orderly : m₀.Orderly) (begun : m₀.Ended) (ended : m.Ended) (which : DrainCall → Bool) :
    (returnedIn which trace).sum = completedIn which trace := by
  have balance := run.drains orderly which
  rw [begun.underWay_eq_zero, ended.underWay_eq_zero, calm.sum_unwoundIn] at balance
  omega

/-- Without a panic, schedules return all that their drains have returned to them. -/
theorem PanicFree.sum_scheduledIn (calm : PanicFree trace) (run : m₀.Recounts trace seen m)
    (orderly : m₀.Orderly) (begun : m₀.Ended) (ended : m.Ended) :
    (scheduledIn trace).sum = (returnedIn (·.scheduled) trace).sum := by
  have balance := weighs_schedules.balance run orderly calm
  rw [begun.schedules_eq_zero, ended.schedules_eq_zero, ← sum_filterMap, ← sum_filterMap] at balance
  simpa [scheduledIn, returnedIn] using balance

/-- The counters of a machine against what a run has shown, from its creation on (`past`), and
against what calls have returned since some moment (`m₀`, `trace`, `seen`). -/
structure Accounted (past : List Occurrence) (m₀ : Machine) (trace : List Pace)
    (seen : List Occurrence) (m : Machine) : Prop where
  /-- There is a life for each message that a stream has started. -/
  lives : ∀ s, (lives s (past ++ seen)).map (·.message) = (startedOn s (past ++ seen)).reverse
  /-- A stream has completed the messages both of whose phases have returned. -/
  completed : m.InHostCode → ∀ s stream, m.world.streams[s]? = some stream →
    stream.completed = fulfilled s (past ++ seen)
  /-- What it has accepted has completed, has panicked, is in flight, or waits. -/
  accepted : m.InHostCode → ∀ s stream, m.world.streams[s]? = some stream →
    (acceptedOn s (past ++ seen)).length =
      stream.completed + abandons s (past ++ seen) + m.inFlight s + stream.pending
  /-- Since no call was under way, a stream has completed what calls to drain it have returned, what
  they had completed when they unwound, and what those have run that are under way. -/
  increase : m₀.Ended → ∀ s stream₀ stream, m₀.world.streams[s]? = some stream₀ →
    m.world.streams[s]? = some stream → stream.completed = stream₀.completed +
      (returnedIn (·.stream = s) trace).sum + (unwoundIn (·.stream = s) trace).sum +
      m.underWay (·.stream = s)
  ended : m.Ended → ∀ which, m.underWay which = 0
  /-- Without a panic the values of all schedules add up to what has completed in the drains that
  they have called for; together with the values of the other drains this is all that has completed
  on any stream. -/
  schedules : m₀.Ended → m.Ended → PanicFree trace →
    (scheduledIn trace).sum = completedIn (·.scheduled) trace ∧
    (m.world.streams.map (·.completed)).sum = (m₀.world.streams.map (·.completed)).sum +
      (scheduledIn trace).sum + (returnedIn (!·.scheduled) trace).sum
  /-- So, if no drain was called for but by schedules, their values are all that has completed. -/
  onlySchedules : m₀.Ended → m.Ended → PanicFree trace →
    (∀ x ∈ trace, ∀ call e, x.thread.drainCall? = some (call, e) → call.scheduled) →
    (m.world.streams.map (·.completed)).sum =
      (m₀.world.streams.map (·.completed)).sum + (scheduledIn trace).sum

theorem completedAt_of_getElem? {w : World} {s : Nat} {stream : Stream}
    (found : w.streams[s]? = some stream) : w.completedAt s = stream.completed := by
  rw [World.completedAt, found]
  rfl

theorem sum_completed (w : World) : (w.streams.map (·.completed)).sum =
    ∑ s ∈ Finset.range w.streams.length, w.completedAt s := by
  rw [Finset.sum_range, ← List.sum_ofFn]
  congr 1
  refine List.ext_getElem (by simp) fun s inside _ => ?_
  rw [List.getElem_map, List.getElem_ofFn]
  exact (completedAt_of_getElem? (List.getElem?_eq_getElem _)).symm

theorem Recounts.sum_completed (run : m₀.Recounts trace seen m) (orderly : m₀.Orderly) :
    (m.world.streams.map (·.completed)).sum = (m₀.world.streams.map (·.completed)).sum +
      completedIn (fun _ => true) trace := by
  rw [Machine.sum_completed, Machine.sum_completed, run.reaches.length_streams,
    ← sum_completedIn (run.known orderly), ← Finset.sum_add_distrib]
  exact Finset.sum_congr rfl fun s hs => run.completedAt (Finset.mem_range.1 hs)

/-- The counter of a stream goes up with each of its instructions that a run shows to complete. -/
theorem Reaches.completedAt (run : m₀.Reaches seen m) {s : Nat}
    (known : s < m₀.world.streams.length) :
    m.world.completedAt s = m₀.world.completedAt s + completions s seen := by
  induction run with
  | refl => rfl
  | @move m m' seen new earlier last ih =>
    rw [completions_append, ← Nat.add_assoc, ← ih]
    have inside : s < m.world.streams.length := by rwa [earlier.length_streams]
    cases last with
    | step i step =>
      obtain ⟨t, r, -, turn, rfl, rfl⟩ := turn_of_stepAt? step
      exact turn.completedAt inside
    | expire i step =>
      obtain ⟨t, r, -, turn, rfl, rfl⟩ := turn_of_expireAt? step
      exact turn.completedAt inside
    | call | revise => rfl
    | offer i message => exact World.completedAt_after (by simp) s

/-- A machine from its creation on, with a part of its run told step by step. One thread is the case
in which all commands come one after another; nothing here depends on that. -/
theorem accounted_of_recounts {config : MachineConfig} {registry : Registry} {w : World}
    (created : World.create config registry = .ok w) (earlier : Reaches ⟨w, []⟩ past m₀)
    (run : m₀.Recounts trace seen m) : Accounted past m₀ trace seen m := by
  have whole := earlier.trans run.reaches
  have free := Guarded.init w (World.executingAt_create created)
  have guarded := whole.guarded free
  have orderly := earlier.orderly (.init created)
  have staged := whole.staged free (.init created) (.init w)
  have counter {s : Nat} {stream : Stream} (found : m.world.streams[s]? = some stream) :
      stream.completed = completions s (past ++ seen) := by
    have known : s < w.streams.length := by
      have := (List.getElem?_eq_some_iff.1 found).1
      rwa [whole.length_streams] at this
    have counted := whole.completedAt known
    rwa [completedAt_of_getElem? found, World.completedAt_create created, Nat.zero_add] at counted
  constructor
  case lives => exact fun s => messages_lives s (past ++ seen)
  case completed =>
    intro host s stream found
    rw [counter found, staged.fulfilled_eq host]
  case accepted =>
    intro host s stream found
    have ledger := whole.accepted_eq created found
    rw [counter found, ledger, List.length_append, guarded.length_started host, Stream.pending]
  case increase =>
    intro begun s stream₀ stream found₀ found
    have counted := run.completedAt (List.getElem?_eq_some_iff.1 found₀).1
    rw [completedAt_of_getElem? found₀, completedAt_of_getElem? found] at counted
    have drains := run.drains orderly (·.stream = s)
    rw [begun.underWay_eq_zero] at drains
    omega
  case ended => exact fun ended which => ended.underWay_eq_zero which
  case schedules =>
    intro begun ended calm
    have returned := calm.sum_returnedIn run orderly begun ended
    have scheduled := calm.sum_scheduledIn run orderly begun ended
    refine ⟨by rw [scheduled, returned], ?_⟩
    rw [run.sum_completed orderly, completedIn_split, scheduled, returned, returned, Nat.add_assoc]
  case onlySchedules =>
    intro begun ended calm only
    have returned := calm.sum_returnedIn run orderly begun ended
    have none : completedIn (!·.scheduled) trace = 0 := by
      rw [completedIn, List.countP_eq_zero]
      intro x hx
      rw [Pace.completes]
      cases drains : x.thread.drainCall? with
      | none => simp
      | some value => simp [only x hx value.1 value.2 drains]
    rw [run.sum_completed orderly, completedIn_split, none, calm.sum_scheduledIn run orderly begun ended,
      returned, Nat.add_zero]

theorem reaches_offeredTriple_world :
    ∃ seen, Reaches ⟨idlePair, []⟩ seen ⟨offeredTriple.world, []⟩ :=
  ⟨_, ((Reaches.refl.move (.offer 0 _ (by decide) rfl)).move (.offer 1 _ (by decide) rfl)).move
    (.offer 0 _ (by decide) rfl)⟩

/-- A schedule runs an instruction that schedules in its middle and then panics: the inner schedule
has completed one instruction, the outer one unwinds. -/
theorem accounted_of_unwound : ∃ past trace seen,
    World.create {} .empty = .ok idlePair ∧
    Reaches ⟨idlePair, []⟩ past ⟨offeredTriple.world, []⟩ ∧
    Recounts ⟨offeredTriple.world, []⟩ trace seen (offeredTriple.run 60).1 ∧
    Accounted past ⟨offeredTriple.world, []⟩ trace seen (offeredTriple.run 60).1 ∧
    (returnedIn (·.stream = 1) trace).sum + (unwoundIn (·.stream = 1) trace).sum = 1 ∧
    fulfilled 0 (past ++ seen) = 0 ∧ fulfilled 1 (past ++ seen) = 1 := by
  have created : World.create {} .empty = .ok idlePair := rfl
  obtain ⟨past, earlier⟩ := reaches_offeredTriple_world
  have told : Reaches ⟨offeredTriple.world, []⟩ _ (offeredTriple.run 60).1 :=
    (Reaches.refl.move (.call .schedule)).goOn 60
  obtain ⟨trace, run⟩ := told.recounts
  have accounted := accounted_of_recounts created earlier run
  have begun : Ended ⟨offeredTriple.world, []⟩ := by simp [Ended]
  have ended : (offeredTriple.run 60).1.Ended := by
    have none : (offeredTriple.run 60).1.threads.map (·.frames.length) = [0] := rfl
    intro t ht
    have := List.mem_map_of_mem (f := (·.frames.length)) ht
    simpa [none] using this
  have host : (offeredTriple.run 60).1.InHostCode := by
    intro t ht f hf
    simp [ended t ht] at hf
  have increase := accounted.increase begun 1 _ _ rfl rfl
  rw [accounted.ended ended] at increase
  have one : 1 = 0 + (returnedIn (·.stream = 1) trace).sum + (unwoundIn (·.stream = 1) trace).sum :=
    increase
  refine ⟨past, trace, _, created, earlier, run, accounted, ?_, ?_, ?_⟩
  · rw [Nat.zero_add] at one
    exact one.symm
  · exact (accounted.completed host 0 _ rfl).symm
  · exact (accounted.completed host 1 _ rfl).symm

end Machine

end StreamMachine
