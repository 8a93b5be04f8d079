import StreamMachine.Proofs.Beside
import StreamMachine.Proofs.Phases
import StreamMachine.Session.Machine

/-! Calls on one instruction, whoever makes them. A call goes through its phases as long as the
status allows the next one and none panics, and what it has come to by then is what the next call
finds. So over any calls the phases that have returned are the first ones, in their order. -/
namespace StreamMachine

/-- What a call has come to: the phases that it has left, and what it has shown of those that have
returned. -/
inductive Instruction.Advances (i₀ : Instruction) (phases₀ : List Phase) :
    List Mark → Instruction → List Phase → Prop
  | refl : Advances i₀ phases₀ [] i₀ phases₀
  | next {past : List Mark} {i : Instruction} {p : Phase} {phases : List Phase}
      (part : Advances i₀ phases₀ past i (p :: phases)) (ready : i.status = p.before) :
      Advances i₀ phases₀ (past ++ [.began p p.before, .returned p]) (i.advance p) phases

/-- How a call ends. -/
inductive Instruction.Attempted (i₀ : Instruction) (phases₀ : List Phase) :
    List Mark → Instruction → Control → Prop
  | returned {past : List Mark} {i : Instruction} (all : i₀.Advances phases₀ past i []) :
      Attempted i₀ phases₀ past i (.reply .ok)
  /-- A phase that the status does not allow is not invoked. -/
  | refused {past : List Mark} {i : Instruction} {p : Phase} {phases : List Phase}
      (part : i₀.Advances phases₀ past i (p :: phases)) (early : i.status ≠ p.before) :
      Attempted i₀ phases₀ past i (.unwind (.violation (.wrongStatus i.name p i.status)))
  /-- One that panics leaves the instruction as it has found it. -/
  | aborted {past : List Mark} {i : Instruction} {p : Phase} {phases : List Phase}
      (part : i₀.Advances phases₀ past i (p :: phases)) (ready : i.status = p.before)
      (panic : Panic) :
      Attempted i₀ phases₀ (past ++ [.began p p.before, .aborted p]) i (.unwind panic)

/-- What an instruction on as many frames shows, and its phases right above it. -/
def marksAt (depth s : Nat) (own : List Pace) : List Mark :=
  (own.filter (·.thread.frames.length ≤ depth + 2)).flatMap (marks s ·.step.seen)

/-- A call on an instruction to go through phases, made by a thread on top of given frames, up to
its end or to any moment before, and told by the steps of that thread. -/
inductive Instruction.Calling (i : Instruction) (phases : List Phase) (place : Nat)
    (base : List Frame) : List Pace → Machine → Prop
  | start {m : Machine} (t : Thread) (found : m.threads[place]? = some t)
      (frames : t.frames = .run i phases :: base) (run : t.control = .run) :
      Calling i phases place base [] m
  | own {m : Machine} {own : List Pace} (run : Calling i phases place base own m) (t : Thread)
      (r : Step) (found : m.threads[place]? = some t) (above : base.length < t.frames.length)
      (goes : t.Goes m r) : Calling i phases place base (own ++ [⟨t, r⟩]) (m.stepped place r)
  | decide {m : Machine} {own : List Pace} (run : Calling i phases place base own m) (t t' : Thread)
      (found : m.threads[place]? = some t) (above : base.length < t.frames.length)
      (revised : t.Revised t') : Calling i phases place base own ⟨m.world, m.threads.set place t'⟩
  | aside {m m' : Machine} {own : List Pace} (run : Calling i phases place base own m)
      (move : Machine.Aside place m m') : Calling i phases place base own m'

/-- A call that has ended: what it has shown, the instruction as it was on the stack last, and how
the thread goes on. -/
inductive Instruction.Called (i : Instruction) (phases : List Phase) :
    List Mark → Instruction → Control → Prop
  | intro {place : Nat} {base : List Frame} {own : List Pace} {m : Machine} {t : Thread} {x : Pace}
      {i' : Instruction} {left : List Phase} (run : i.Calling phases place base own m)
      (found : m.threads[place]? = some t) (back : t.frames = base) (last : own.getLast? = some x)
      (leaves : x.thread.frames = .run i' left :: base) :
      Called i phases (marksAt base.length i.stream own) i' t.control

/-- Any calls on an instruction, one after the other; a panic is caught by whoever calls. -/
inductive Instruction.History (i₀ : Instruction) : List Mark → Instruction → Prop
  | new : History i₀ [] i₀
  | call {past new : List Mark} {i i' : Instruction} {phases : List Phase} {control : Control}
      (earlier : History i₀ past i) (last : i.Called phases new i' control) :
      History i₀ (past ++ new) i'

variable {place : Nat} {base : List Frame} {i₀ i i' : Instruction} {phases₀ phases : List Phase}
  {past : List Mark} {own : List Pace} {m : Machine} {t t' : Thread} {r : Step}

theorem marksAt_low (s : Nat) (own : List Pace) (r : Step) (depth : Nat)
    (low : t.frames.length ≤ depth + 2) :
    marksAt depth s (own ++ [⟨t, r⟩]) = marksAt depth s own ++ marks s r.seen := by
  simp [marksAt, low]

theorem marksAt_high (s : Nat) (own : List Pace) (r : Step) (depth : Nat)
    (high : depth + 2 < t.frames.length) :
    marksAt depth s (own ++ [⟨t, r⟩]) = marksAt depth s own := by
  have low : ¬ t.frames.length ≤ depth + 2 := Nat.not_le.2 high
  simp [marksAt, low]

theorem marks_silent {seen : List Occurrence} (silent : ∀ o ∈ seen, o.Silent) (s : Nat) :
    marks s seen = [] := by
  rw [marks, List.filterMap_eq_nil_iff]
  exact fun o ho => Occurrence.mark?_apart (Lived.silent_apart (silent o ho))

namespace Instruction

theorem Advances.stream (h : i₀.Advances phases₀ past i phases) : i.stream = i₀.stream := by
  induction h with
  | refl => rfl
  | next _ _ ih => exact ih

/-- An instruction has got as far as the phases take it that are behind it. -/
theorem Advances.exists_done (h : i₀.Advances phases₀ past i phases) :
    ∃ done, phases₀ = done ++ phases ∧ i = done.foldl advance i₀ := by
  induction h with
  | refl => exact ⟨[], rfl, rfl⟩
  | @next past i p phases part ready ih =>
    obtain ⟨done, rfl, rfl⟩ := ih
    exact ⟨done ++ [p], by simp, by simp⟩

/-- Where a call stands. -/
inductive Stands (i₀ : Instruction) (phases₀ : List Phase) (base : List Frame) (own : List Pace)
    (t : Thread) : Prop
  | ready (past : List Mark) (i : Instruction) (phases : List Phase)
      (part : i₀.Advances phases₀ past i phases)
      (shown : marksAt base.length i₀.stream own = past) (frames : t.frames = .run i phases :: base)
      (run : t.control = .run)
  | within (past : List Mark) (i : Instruction) (p : Phase) (phases : List Phase)
      (part : i₀.Advances phases₀ past i (p :: phases)) (ready : i.status = p.before)
      (shown : marksAt base.length i₀.stream own = past ++ [.began p p.before])
      (inner : List Frame) (moves : List Move)
      (frames : t.frames = inner ++ .phase i p moves :: .run i (p :: phases) :: base)
  | returned (past : List Mark) (i : Instruction) (p : Phase) (phases : List Phase)
      (part : i₀.Advances phases₀ past i (p :: phases)) (ready : i.status = p.before)
      (shown : marksAt base.length i₀.stream own = past ++ [.began p p.before, .returned p])
      (reply : Reply) (frames : t.frames = .run i (p :: phases) :: base)
      (control : t.control = .reply reply)
  | aborted (past : List Mark) (i : Instruction) (p : Phase) (phases : List Phase)
      (part : i₀.Advances phases₀ past i (p :: phases)) (ready : i.status = p.before)
      (shown : marksAt base.length i₀.stream own = past ++ [.began p p.before, .aborted p])
      (panic : Panic) (frames : t.frames = .run i (p :: phases) :: base)
      (control : t.control = .unwind panic)
  | finished (x : Pace) (last : own.getLast? = some x) (i : Instruction) (left : List Phase)
      (leaves : x.thread.frames = .run i left :: base) (back : t.frames = base)
      (ended : i₀.Attempted phases₀ (marksAt base.length i₀.stream own) i t.control)

namespace Stands

theorem of_phase {p : Phase} (part : i₀.Advances phases₀ past i (p :: phases))
    (ready : i.status = p.before)
    (shown : marksAt base.length i₀.stream own = past ++ [.began p p.before]) {moves : List Move}
    (frames : t.frames = .phase i p moves :: .run i (p :: phases) :: base)
    (stride : Stride m.world t r) : i₀.Stands phases₀ base (own ++ [⟨t, r⟩]) r.thread := by
  have low := marksAt_low i₀.stream own r base.length (t := t) (by simp [frames])
  rw [shown, List.append_assoc] at low
  have stream := part.stream
  cases stride with
  | move j q old new outer added frames' stack fresh run sits spawned silent =>
    rw [frames] at frames'
    cases frames'
    rw [marks_silent silent] at low
    exact .within past i p phases part ready low added new stack
  | returned j q outer frames' =>
    rw [frames] at frames'
    cases frames'
    refine .returned past i p phases part ready ?_ .ok rfl rfl
    simpa [marks, Occurrence.mark?, stream] using low
  | aborted j q moves outer panic frames' =>
    rw [frames] at frames'
    cases frames'
    refine .aborted past i p phases part ready ?_ panic rfl rfl
    simpa [marks, Occurrence.mark?, stream] using low
  | plain _ _ _ frames' plain =>
    rw [frames] at frames'
    cases frames'
    exact plain.elim
  | begin _ _ _ _ frames' | refuse _ _ _ _ _ frames' | advance _ _ _ _ _ frames'
  | done _ _ _ frames' | fall _ _ _ _ frames' | visit _ _ _ _ frames' | collect _ _ _ _ frames'
  | sum _ _ frames' | forsake _ _ _ _ frames' | drain _ _ _ _ frames' =>
    rw [frames] at frames'
    cases frames'

theorem of_ready (part : i₀.Advances phases₀ past i phases)
    (shown : marksAt base.length i₀.stream own = past) (frames : t.frames = .run i phases :: base)
    (run : t.control = .run) (goes : t.Goes m r) :
    i₀.Stands phases₀ base (own ++ [⟨t, r⟩]) r.thread := by
  have low := marksAt_low i₀.stream own r base.length (t := t) (by simp [frames])
  rw [shown] at low
  obtain rfl := (Thread.goes_iff_of_run frames run).1 goes
  cases phases with
  | nil =>
    refine .finished ⟨t, _⟩ List.getLast?_concat i [] frames rfl ?_
    rw [low]
    simpa [marks, Thread.stepRun, Thread.give] using Attempted.returned part
  | cons p phases =>
    by_cases ready : i.status = p.before
    · rw [Thread.stepRun_of_ready _ _ _ ready] at low ⊢
      refine .within past i p phases part ready ?_ [] (i.behavior.moves p) rfl
      simpa [marks, Occurrence.mark?, part.stream] using low
    · rw [Thread.stepRun_of_early _ _ _ ready] at low ⊢
      refine .finished ⟨t, _⟩ List.getLast?_concat i (p :: phases) frames rfl ?_
      rw [low]
      simpa [marks, Occurrence.mark?, Thread.notice, Thread.fail] using Attempted.refused part ready

theorem step (h : i₀.Stands phases₀ base own t) (above : base.length < t.frames.length)
    (goes : t.Goes m r) : i₀.Stands phases₀ base (own ++ [⟨t, r⟩]) r.thread := by
  cases h with
  | ready past i phases part shown frames run => exact of_ready part shown frames run goes
  | within past i p phases part ready shown inner moves frames =>
    cases inner with
    | nil => exact of_phase part ready shown frames goes.turn_stride.2
    | cons f inner =>
      obtain ⟨added, stack⟩ := goes.turn_stride.1.above frames
      -- A step inside the phase is made too high up to be one of the call's own.
      have high : base.length + 2 < t.frames.length := by
        rw [frames]
        simp only [List.length_append, List.length_cons]
        omega
      refine .within past i p phases part ready ?_ (added ++ inner) moves ?_
      · rw [marksAt_high _ _ _ _ high, shown]
      · rw [List.append_assoc]
        exact stack
  | returned past i p phases part ready shown reply frames control =>
    have low := marksAt_low i₀.stream own r base.length (t := t) (by simp [frames])
    obtain rfl := goes.of_reply frames control
    refine .ready _ _ phases (part.next ready) ?_ rfl rfl
    rw [low, shown]
    exact List.append_nil _
  | aborted past i p phases part ready shown panic frames control =>
    have low := marksAt_low i₀.stream own r base.length (t := t) (by simp [frames])
    obtain rfl := goes.of_unwind frames control
    refine .finished ⟨t, _⟩ List.getLast?_concat i (p :: phases) frames rfl ?_
    rw [low, shown]
    simpa [marks, Thread.stepUnwind, Thread.fail] using Attempted.aborted part ready panic
  | finished x last i left leaves back => simp [back] at above

theorem decide (h : i₀.Stands phases₀ base own t) (above : base.length < t.frames.length)
    (revised : t.Revised t') : i₀.Stands phases₀ base own t' := by
  obtain ⟨f, g, outer, hf, -, frames, frames', -⟩ := revised.calm
  cases h with
  | ready _ _ _ _ _ stack | returned _ _ _ _ _ _ _ _ stack | aborted _ _ _ _ _ _ _ _ stack =>
    rw [stack] at frames
    cases frames
    exact hf.elim
  | within past i p phases part ready shown inner moves stack =>
    cases inner with
    | nil =>
      cases revised with
      | moves j q old new rest top =>
        rw [stack] at top
        cases top
        exact .within past i p phases part ready shown [] new rfl
      | actions _ _ _ _ top =>
        rw [stack] at top
        cases top
    | cons f' inner =>
      rw [stack] at frames
      cases frames
      exact .within past i p phases part ready shown (g :: inner) moves frames'
  | finished x last i left leaves back => simp [back] at above

end Stands

/-- A call stands somewhere at every moment. -/
theorem Calling.stands (run : i.Calling phases place base own m) :
    ∃ t, m.threads[place]? = some t ∧ i.Stands phases base own t := by
  induction run with
  | start t found frames run => exact ⟨t, found, .ready [] i phases .refl rfl frames run⟩
  | own run t r found above goes ih =>
    obtain ⟨t', found', stands⟩ := ih
    obtain rfl := Option.some.inj (found.symm.trans found')
    exact ⟨_, Machine.getElem?_stepped found r, stands.step above goes⟩
  | decide run t t' found above revised ih =>
    obtain ⟨u, found', stands⟩ := ih
    obtain rfl := Option.some.inj (found.symm.trans found')
    have inside := (List.getElem?_eq_some_iff.1 found).1
    exact ⟨t', List.getElem?_set_self inside, stands.decide above revised⟩
  | aside run move ih =>
    obtain ⟨t, found, stands⟩ := ih
    exact ⟨t, move.thread found, stands⟩

theorem Stands.finished_of_back (h : i₀.Stands phases₀ base own t) (back : t.frames = base) :
    ∃ x i left, own.getLast? = some x ∧ x.thread.frames = .run i left :: base ∧
      i₀.Attempted phases₀ (marksAt base.length i₀.stream own) i t.control := by
  cases h with
  | finished x last i left leaves _ ended => exact ⟨x, i, left, last, leaves, ended⟩
  | ready _ _ _ _ _ frames | within _ _ _ _ _ _ _ _ _ frames | returned _ _ _ _ _ _ _ _ frames
  | aborted _ _ _ _ _ _ _ _ frames =>
    have long := congrArg List.length (frames.symm.trans back)
    simp only [List.length_append, List.length_cons] at long
    omega

/-- A call ends in one of these ways. -/
theorem Called.attempted {new : List Mark} {control : Control}
    (h : i.Called phases new i' control) : i.Attempted phases new i' control := by
  obtain @⟨place, base, own, m, t, x, i', left, run, found, back, last, leaves⟩ := h
  obtain ⟨u, foundu, stands⟩ := run.stands
  obtain rfl := Option.some.inj (found.symm.trans foundu)
  obtain ⟨y, i₁, left', last', leaves', ended⟩ := stands.finished_of_back back
  obtain rfl := Option.some.inj (last.symm.trans last')
  obtain ⟨rfl, -⟩ := Frame.run.inj (List.cons.inj (leaves.symm.trans leaves')).1
  exact ended

end Instruction

/-- A phase has returned. -/
def Mark.returned? : Mark → Option Phase
  | .returned p => some p
  | _ => none

/-- The phases that have returned. -/
def returnedPhases (past : List Mark) : List Phase := past.filterMap Mark.returned?

theorem returnedPhases_append (xs ys : List Mark) :
    returnedPhases (xs ++ ys) = returnedPhases xs ++ returnedPhases ys := List.filterMap_append

theorem Phase.past_after (p : Phase) : p.after.past.reverse = p.before.past.reverse ++ [p] := by
  cases p <;> rfl

theorem Status.past_prefix (q : Status) : q.past.reverse <+: [.infer, .compute] := by
  cases q <;> decide

namespace Instruction

theorem Advances.returnedPhases_eq (h : i₀.Advances phases₀ past i phases) :
    i₀.status.past.reverse ++ returnedPhases past = i.status.past.reverse := by
  induction h with
  | refl => exact List.append_nil _
  | @next past i p phases part ready ih =>
    have one : returnedPhases (past ++ [.began p p.before, .returned p]) =
        returnedPhases past ++ [p] := by
      rw [returnedPhases_append]
      rfl
    rw [one, ← List.append_assoc, ih, ready]
    exact p.past_after.symm

theorem Attempted.returnedPhases_eq {new : List Mark} {control : Control}
    (h : i₀.Attempted phases₀ new i control) :
    i₀.status.past.reverse ++ returnedPhases new = i.status.past.reverse := by
  cases h with
  | returned part | refused part => exact part.returnedPhases_eq
  | aborted part =>
    rw [← part.returnedPhases_eq]
    simp [returnedPhases, Mark.returned?]

/-- In the middle of a call, too, the phases that have returned are those of some status. -/
theorem Stands.returnedPhases_eq (h : i₀.Stands phases₀ base own t) : ∃ q : Status,
    i₀.status.past.reverse ++ returnedPhases (marksAt base.length i₀.stream own) =
      q.past.reverse := by
  cases h with
  | ready past i phases part shown => exact ⟨_, shown ▸ part.returnedPhases_eq⟩
  | within past i p phases part ready shown | aborted past i p phases part ready shown =>
    refine ⟨i.status, ?_⟩
    rw [shown, ← part.returnedPhases_eq]
    simp [returnedPhases, Mark.returned?]
  | returned past i p phases part ready shown =>
    refine ⟨(i.advance p).status, ?_⟩
    rw [shown]
    exact (part.next ready).returnedPhases_eq
  | finished x last i left leaves back ended => exact ⟨_, ended.returnedPhases_eq⟩

theorem History.returnedPhases_eq (h : i₀.History past i) :
    i₀.status.past.reverse ++ returnedPhases past = i.status.past.reverse := by
  induction h with
  | new => exact List.append_nil _
  | @call past new i i' phases control earlier last ih =>
    rw [returnedPhases_append, ← List.append_assoc, ih]
    exact last.attempted.returnedPhases_eq

end Instruction

namespace Machine

variable {m' : Machine} {seen : List Occurrence}

theorem exists_goes_of_next? (h : m.next? = some (m', seen)) :
    ∃ k t r, m.threads[k]? = some t ∧ t.Goes m r ∧ m' = m.stepped k r ∧ seen = r.seen := by
  simp only [next?, Option.orElse_eq_orElse, Option.orElse_eq_or, Option.or_eq_some_iff] at h
  obtain h | ⟨-, h⟩ := h
  · obtain ⟨k, -, step⟩ := List.exists_of_findSome?_eq_some h
    obtain ⟨t, r, found, taken, same, shown⟩ := step_of_stepAt? step
    exact ⟨k, t, r, found, .step taken, same, shown⟩
  · obtain ⟨k, -, step⟩ := List.exists_of_findSome?_eq_some h
    simp only [expireAt?, Option.bind_eq_bind, Option.bind_eq_some_iff] at step
    obtain ⟨t, found, step⟩ := step
    split at step
    next a gate outer frames control =>
      cases step
      exact ⟨k, t, _, found, .expire a gate outer frames control, by simp [stepped], rfl⟩
    · cases step

theorem run_of_next?_eq_none (h : m.next? = none) (budget : Nat) : m.run budget = (m, []) := by
  cases budget <;> simp [run, h]

end Machine

namespace Instruction

/-- To run a machine with a call on it is one of the ways in which the call goes on. -/
theorem Calling.goOn (call : i.Calling phases place [] own m) (budget : Nat) :
    ∃ own', i.Calling phases place [] own' (m.run budget).1 := by
  induction budget generalizing m own with
  | zero => exact ⟨own, call⟩
  | succ budget ih =>
    rw [Machine.run]
    split
    · exact ⟨own, call⟩
    next m' seen next =>
      obtain ⟨k, t, r, found, goes, rfl, rfl⟩ := Machine.exists_goes_of_next? next
      by_cases here : k = place
      · subst here
        exact ih (call.own t r found (List.length_pos_of_ne_nil goes.frames_ne_nil) goes)
      · exact ih (call.aside (.go k here t r found goes))

/-- How a thread goes on with an outcome. -/
def controlOf : Except Panic Reply → Control
  | .ok reply => .reply reply
  | .error panic => .unwind panic

theorem control_of_outcome? {outcome : Except Panic Reply} (h : t.outcome? = some outcome) :
    t.control = controlOf outcome := by
  rw [Thread.outcome?] at h
  split at h
  next control => cases h; exact control
  next control => cases h; exact control
  · cases h

/-- A phase by itself takes the instruction on if it returns. -/
theorem Attempted.eq_advance {p : Phase} {new : List Mark} {reply : Reply}
    (h : i.Attempted [p] new i' (.reply reply)) : i' = i.advance p := by
  cases h with
  | returned all =>
    obtain ⟨done, phases, rfl⟩ := all.exists_done
    rw [List.append_nil] at phases
    rw [← phases]
    rfl

/-- It leaves the instruction as it is if it panics. -/
theorem Attempted.eq_of_panic {p : Phase} {new : List Mark} {panic : Panic}
    (h : i.Attempted [p] new i' (.unwind panic)) : i' = i := by
  have first {past : List Mark} {q : Phase} {phases : List Phase}
      (part : i.Advances [p] past i' (q :: phases)) : i' = i := by
    obtain ⟨done, whole, rfl⟩ := part.exists_done
    have none : done = [] := by
      have long := congrArg List.length whole
      simp only [List.length_append, List.length_cons, List.length_nil] at long
      exact List.length_eq_zero_iff.1 (by omega)
    rw [none]
    rfl
  cases h with
  | refused part | aborted part => exact first part

/-- A phase that is run by itself, and ends, is such a call. -/
theorem called_of_ofPhase {w : World} {p : Phase} {outcome : Except Panic Reply}
    (ended : (w.runPhase i p).outcome = some outcome) :
    ∃ new, i.Called [p] new (i.ofPhase w p).2.1 (controlOf outcome) := by
  have call : i.Calling [p] 0 [] [] ⟨w, [{ frames := [.run i [p]] }]⟩ := .start _ rfl rfl rfl
  obtain ⟨own, run⟩ := call.goOn (w.budget (i.message.operand.elim 1 (·.size)))
  obtain ⟨t, found, stands⟩ := run.stands
  have answered : t.outcome? = some outcome := by
    simpa [World.runPhase, World.runThread, Machine.outcome?, found] using ended
  have back := Thread.frames_of_outcome? answered
  obtain ⟨x, i', left, last, leaves, -⟩ := stands.finished_of_back back
  have called := Called.intro run found back last leaves
  rw [control_of_outcome? answered] at called
  have same : (i.ofPhase w p).2.1 = i' := by
    cases outcome with
    | ok reply => rw [called.attempted.eq_advance, ofPhase, ended]
    | error panic => rw [called.attempted.eq_of_panic, ofPhase, ended]
  exact ⟨_, same ▸ called⟩

theorem History.trans {new : List Mark} (first : i₀.History past i) (second : i.History new i') :
    i₀.History (past ++ new) i' := by
  induction second with
  | new => rwa [List.append_nil]
  | call earlier last ih =>
    rw [← List.append_assoc]
    exact ih.call last

theorem history_of_ofPhase {w : World} {p : Phase} (answered : (i.ofPhase w p).1.reply ≠ none) :
    ∃ new, i.History new (i.ofPhase w p).2.1 := by
  cases ended : (w.runPhase i p).outcome with
  | none => simp [ofPhase, Ran.answer, ended] at answered
  | some outcome =>
    obtain ⟨new, called⟩ := called_of_ofPhase ended
    exact ⟨[] ++ new, History.new.call called⟩

/-- The calls of a session that are answered are calls on the instruction. -/
theorem history_of_call {w : World} {call : InstructionCall}
    (answered : (i.call w call).1.reply ≠ none) : ∃ new, i.History new (i.call w call).2.1 := by
  cases call with
  | infer | compute => exact history_of_ofPhase answered
  | run =>
    change (i.both w).1.reply ≠ none at answered
    change ∃ new, i.History new (i.both w).2.1
    have inferred := history_of_ofPhase (i := i) (w := w) (p := .infer)
    rw [both] at answered ⊢
    generalize i.ofPhase w .infer = ran at inferred answered ⊢
    obtain ⟨first, i₁, w₁⟩ := ran
    dsimp only at inferred answered ⊢
    split_ifs at answered ⊢ with went
    · obtain ⟨new, earlier⟩ := inferred fun none => by simp [none] at went
      obtain ⟨new', later⟩ := history_of_ofPhase answered
      exact ⟨_, earlier.trans later⟩
    · exact inferred answered
  | operand | message | debug | device | command => exact ⟨_, .new⟩

/-- A call that the status does not allow has shown nothing and changed nothing. -/
theorem Advances.eq_of_early {p : Phase} (h : i.Advances (p :: phases₀) past i' phases)
    (early : i.status ≠ p.before) : past = [] ∧ i' = i ∧ phases = p :: phases₀ := by
  induction h with
  | refl => exact ⟨rfl, rfl, rfl⟩
  | next part ready ih =>
    obtain ⟨-, rfl, same⟩ := ih
    rw [(List.cons.inj same).1] at ready
    exact (early ready).elim

theorem Attempted.eq_of_early {p : Phase} {new : List Mark} {control : Control}
    (h : i.Attempted (p :: phases) new i' control) (early : i.status ≠ p.before) :
    new = [] ∧ i' = i ∧ control = .unwind (.violation (.wrongStatus i.name p i.status)) := by
  cases h with
  | returned all =>
    obtain ⟨-, -, left⟩ := all.eq_of_early early
    cases left
  | refused part =>
    obtain ⟨rfl, rfl, left⟩ := part.eq_of_early early
    obtain ⟨rfl, -⟩ := List.cons.inj left
    exact ⟨rfl, rfl, rfl⟩
  | aborted part ready =>
    obtain ⟨-, rfl, left⟩ := part.eq_of_early early
    rw [(List.cons.inj left).1] at ready
    exact (early ready).elim

/-- By itself it is refused at once, and that is all. -/
theorem ofPhase_of_early {p : Phase} (early : i.status ≠ p.before) (w : World) :
    i.ofPhase w p = (⟨some (.panicked (.violation (.wrongStatus i.name p i.status))), [],
      [⟨.violated (.wrongStatus i.name p i.status), []⟩]⟩, i, w) := by
  let refused : Thread :=
    { frames := [], control := .unwind (.violation (.wrongStatus i.name p i.status)) }
  let notice : Occurrence := .traced ⟨.violated (.wrongStatus i.name p i.status), []⟩
  have step : Machine.stepAt? ⟨w, [{ frames := [.run i [p]] }]⟩ 0 =
      some (⟨w, [refused]⟩, [notice]) := by
    have early := Thread.stepRun_of_early { frames := [.run i [p]] } [] [] early
    simp only [Machine.stepAt?, Thread.step?, Thread.stepFrame?, List.getElem?_cons_zero,
      Option.bind_eq_bind, Option.bind_some, early]
    rfl
  have first : Machine.next? ⟨w, [{ frames := [.run i [p]] }]⟩ =
      some (⟨w, [refused]⟩, [notice]) := by
    change (List.findSome? _ [0] <|> _) = _
    rw [List.findSome?_cons, step]
    rfl
  have last : Machine.next? ⟨w, [refused]⟩ = none := rfl
  obtain ⟨n, budget⟩ : ∃ n, w.budget (i.message.operand.elim 1 (·.size)) = n + 1 :=
    Nat.exists_eq_succ_of_ne_zero (by simp [World.budget])
  have ran : w.runPhase i p = ⟨w, refused.outcome?, [notice]⟩ := by
    rw [World.runPhase, World.runThread, budget, Machine.run, first]
    dsimp only
    rw [Machine.run_of_next?_eq_none last]
    rfl
  rw [ofPhase, ran]
  rfl

end Instruction

/-- What holds of any calls on an instruction, whoever makes them on whatever machine, and whatever
happens beside them. -/
structure Instruction.Ordered (i₀ : Instruction) : Prop where
  /-- A call that the status does not allow panics at once. No phase is invoked, and the instruction
  is left as it is. -/
  refused : ∀ past i, i₀.History past i → ∀ p phases, i.status ≠ p.before →
    (∀ (m : Machine) (t : Thread) (base : List Frame), t.frames = .run i (p :: phases) :: base →
      t.control = .run → ∀ r, t.Goes m r ↔
        r = ⟨.nothing, t.fail base (.violation (.wrongStatus i.name p i.status)), [],
          [t.notice (.violated (.wrongStatus i.name p i.status))]⟩) ∧
    ∀ new i' control, i.Called (p :: phases) new i' control →
      new = [] ∧ i' = i ∧ control = .unwind (.violation (.wrongStatus i.name p i.status))
  panicked : ∀ past i, i₀.History past i → ∀ p new i' panic, i.Called [p] new i' (.unwind panic) →
    i' = i
  attempted : ∀ past i, i₀.History past i → ∀ phases new i' control,
    i.Called phases new i' control → i.Attempted phases new i' control
  status : ∀ past i, i₀.History past i → returnedPhases past = i.status.past.reverse
  /-- In the middle of a call, too, the phases that have returned are the first ones. -/
  ordered : ∀ past i, i₀.History past i → ∀ phases place base own m,
    i.Calling phases place base own m →
      returnedPhases (past ++ marksAt base.length i.stream own) <+: [.infer, .compute]
  /-- The calls of a session are among these. -/
  sessions : ∀ past i, i₀.History past i → ∀ w call, (i.call w call).1.reply ≠ none →
    ∃ new, i₀.History (past ++ new) (i.call w call).2.1
  /-- One that the status does not allow answers with the panic there, and changes nothing. -/
  answered : ∀ past i, i₀.History past i → ∀ p, i.status ≠ p.before → ∀ w, i.ofPhase w p =
    (⟨some (.panicked (.violation (.wrongStatus i.name p i.status))), [],
      [⟨.violated (.wrongStatus i.name p i.status), []⟩]⟩, i, w)

theorem Instruction.ordered_of_created (new : i₀.status = .created) : i₀.Ordered := by
  have all (past : List Mark) (i : Instruction) (history : i₀.History past i) :
      returnedPhases past = i.status.past.reverse := by
    simpa [new, Status.past] using history.returnedPhases_eq
  refine ⟨fun past i _ p phases early => ⟨fun m t base frames run r => ?_, ?_⟩, ?_, ?_, all,
    ?_, ?_, ?_⟩
  · rw [Thread.goes_iff_of_run frames run, Thread.stepRun_of_early _ _ _ early]
  · exact fun _ _ _ called => called.attempted.eq_of_early early
  · exact fun _ _ _ _ _ _ _ called => called.attempted.eq_of_panic
  · exact fun _ _ _ _ _ _ _ called => called.attempted
  · intro past i history phases place base own m call
    obtain ⟨t, -, stands⟩ := call.stands
    obtain ⟨q, come⟩ := stands.returnedPhases_eq
    rw [returnedPhases_append, all past i history, come]
    exact q.past_prefix
  · intro past i history w call answered
    obtain ⟨new, later⟩ := history_of_call answered
    exact ⟨new, history.trans later⟩
  · exact fun _ _ _ _ early w => ofPhase_of_early early w

/-- A machine at any moment of any run, and any calls on a new instruction. -/
theorem phased_of_reaches {config : MachineConfig} {registry : Registry} {w : World}
    (created : World.create config registry = .ok w) {seen : List Occurrence}
    (run : Machine.Reaches ⟨w, []⟩ seen m) : m.Phased seen ∧
      ∀ message stream, (⟨message, stream, .created⟩ : Instruction).Ordered :=
  ⟨run.phased (.init w (World.executingAt_create created)) (.init created)
    (World.queueAt_create created), fun _ _ => Instruction.ordered_of_created rfl⟩

/-- The first message has panicked in its second phase, and a schedule in its first has run the one
of the other stream; the last has not been started. An instruction by itself that panics there stays
inferred. -/
theorem phased_of_unwound : ∃ seen,
    World.create {} .empty = .ok idlePair ∧
    Machine.Reaches ⟨idlePair, []⟩ seen (offeredTriple.run 60).1 ∧
    phaseTrace 0 0 seen = [.began .infer .created, .returned .infer, .began .compute .inferred,
      .aborted .compute] ∧
    phaseTrace 1 0 seen = Status.computed.sofar ∧ phaseTrace 0 1 seen = [] ∧
    (offeredTriple.run 60).1.Phased seen ∧
    let i : Instruction := ⟨.probe .host [] [.panic "boom"], 0, .created⟩
    ∃ past, i.History past (i.call idlePair .run).2.1 ∧ returnedPhases past = [.infer] := by
  have created : World.create {} .empty = .ok idlePair := rfl
  have offered : Machine.Reaches ⟨idlePair, []⟩ _ offeredTriple :=
    (((Machine.Reaches.refl.move (.offer 0 _ (by decide) rfl)).move
      (.offer 1 _ (by decide) rfl)).move (.offer 0 _ (by decide) rfl)).move (.call .schedule)
  obtain ⟨phased, ordered⟩ := phased_of_reaches created (offered.goOn 60)
  have calls := ordered (.probe .host [] [.panic "boom"]) 0
  obtain ⟨past, history⟩ := calls.sessions [] _ .new idlePair .run (Option.some_ne_none _)
  exact ⟨_, created, offered.goOn 60, by decide +kernel, by decide +kernel, by decide +kernel,
    phased, past, history, calls.status past _ history⟩

end StreamMachine
