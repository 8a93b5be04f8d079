import Mathlib.Data.List.DropRight
import Mathlib.Logic.Relation
import StreamMachine.Proofs.Recovery

/-! Calls made again and again. Host code calls for the pending instructions of a stream, catches the
panic with which the call unwinds, and calls once more, until a call returns. Each call takes up the
queue right behind the message that ended the one before, so all messages run, each of them once. -/
namespace StreamMachine

open Relation (ReflTransGen)

/-- Whatever way is taken, it comes to a goal. -/
inductive Inevitable {α : Type} (next : α → α → Prop) (goal : α → Prop) : α → Prop
  | now {x : α} (reached : goal x) : Inevitable next goal x
  | later {x : α} (can : ∃ y, next x y) (all : ∀ y, next x y → Inevitable next goal y) :
    Inevitable next goal x

theorem Inevitable.bind {α : Type} {next : α → α → Prop} {middle goal : α → Prop} {x : α}
    (h : Inevitable next middle x)
    (onward : ∀ y, ReflTransGen next x y → middle y → Inevitable next goal y) :
    Inevitable next goal x := by
  induction h with
  | now reached => exact onward _ .refl reached
  | later can all ih =>
    exact .later can fun y hy => ih y hy fun z hz reached => onward z (.head hy hz) reached

/-- Host code in the middle of its calls: the call under way is on the thread at a place of its own. -/
structure Retry where
  machine : Machine
  place : Nat
  caught : List Panic := []
  trace : List Pace := []
  seen : List Occurrence := []

namespace Machine

/-- Host code calls for the pending instructions of a stream. -/
def called (m : Machine) (category : StreamCategory) : Machine :=
  ⟨m.world, m.threads ++ [.ofCommand (.runPending category)]⟩

end Machine

namespace Retry

def call (x : Retry) : Call := ⟨x.place, [], x.place + 1⟩

/-- The first call. -/
def first (category : StreamCategory) (m : Machine) : Retry :=
  { machine := m.called category, place := m.threads.length }

/-- The call goes on, or it has unwound and the host code catches the panic and calls once more. -/
inductive Next (category : StreamCategory) (x : Retry) : Retry → Prop
  | go (i : Nat) (t : Thread) (r : Step) (found : x.machine.threads[i]? = some t)
      (covered : x.call.Covers i t) (goes : t.Goes x.machine r) :
      Next category x { x with
        machine := x.machine.stepped i r
        trace := x.trace ++ [⟨t, r⟩]
        seen := x.seen ++ r.seen }
  | again (panic : Panic) (unwound : x.machine.outcome? x.place = some (.error panic)) :
      Next category x { x with
        machine := x.machine.called category
        place := x.machine.threads.length
        caught := x.caught ++ [panic] }

/-- How far host code can come from its first call on. -/
def Reached (category : StreamCategory) (m : Machine) : Retry → Prop :=
  ReflTransGen (Next category) (first category m)

/-- The call under way, told apart from the calls before it, all of which have unwound. -/
structure Ongoing (category : StreamCategory) (s : Nat) (m₀ : Machine) (x : Retry)
    (before : List Pace) (shown : List Occurrence) (m₁ : Machine) (trace : List Pace)
    (seen : List Occurrence) : Prop where
  traced : x.trace = before ++ trace
  told : x.seen = shown ++ seen
  earlier : m₀.Reaches shown m₁
  begins : x.call.Begins s m₁
  run : x.call.Runs m₁ trace seen x.machine
  free : m₁.world.executingAt s = false
  caught : x.caught = (fates s before).filterMap (·.2)
  started : startedOn s shown = (fates s before).map (·.1)
  completed : m₁.world.completedAt s + x.caught.length =
    m₀.world.completedAt s + (fates s before).length
  /-- The last message that has been started before has panicked. -/
  settled : ∀ f ∈ (fates s before).getLast?, f.2 ≠ none

variable {category : StreamCategory} {s : Nat} {m₀ m₁ : Machine} {x y : Retry}
  {before trace : List Pace} {past shown seen : List Occurrence}

theorem begins_called {m : Machine} (known : m.world.streamOf? category = some s) :
    Call.Begins ⟨m.threads.length, [], m.threads.length + 1⟩ s (m.called category) where
  thread := ⟨.ofCommand (.runPending category), by simp [Machine.called], rfl,
    .inr ⟨category, known, rfl⟩⟩
  floor := by simp [Machine.called]

theorem filterMap_calmly (messages : List Message) : (calmly messages).filterMap (·.2) = [] := by
  simp [calmly]

theorem map_calmly (messages : List Message) : (calmly messages).map (·.1) = messages := by
  simp [calmly, Function.comp_def]

theorem ends_of_outcome? {m : Machine} {place : Nat} {v : Except Panic Reply}
    (h : m.outcome? place = some v) {floor : Nat} : Call.Ends ⟨place, [], floor⟩ m
      (match v with | .ok reply => .reply reply | .error panic => .unwind panic) := by
  simp only [Machine.outcome?, Option.bind_eq_bind, Option.bind_eq_some_iff] at h
  obtain ⟨t, found, outcome⟩ := h
  refine ⟨t, found, Thread.frames_of_outcome? outcome, ?_⟩
  rw [Thread.outcome?] at outcome
  split at outcome <;> cases outcome <;> assumption

namespace Ongoing

theorem init (known : m₀.world.streamOf? category = some s)
    (free : m₀.world.executingAt s = false) :
    Ongoing category s m₀ (first category m₀) [] [] (m₀.called category) [] [] where
  traced := rfl
  told := rfl
  earlier := Machine.Reaches.refl.move (.call (.runPending category))
  begins := begins_called known
  run := .refl
  free := free
  caught := rfl
  started := rfl
  completed := rfl
  settled := by simp [fates]

/-- Host code catches the panic of a call that has unwound. -/
theorem again (h : Ongoing category s m₀ x before shown m₁ trace seen) (sound : m₀.Sound past)
    (known : m₀.world.streamOf? category = some s) {panic : Panic}
    (unwound : x.machine.outcome? x.place = some (.error panic)) :
    Ongoing category s m₀ { x with
      machine := x.machine.called category
      place := x.machine.threads.length
      caught := x.caught ++ [panic] } x.trace x.seen (x.machine.called category) [] [] := by
  obtain ⟨firsts, last, broken⟩ :=
    h.run.broken h.begins (sound.after h.earlier) (ends_of_outcome? unwound)
  have whole := h.earlier.trans h.run.reaches
  have all : fates s x.trace = fates s before ++ (calmly firsts ++ [(last, some panic)]) := by
    rw [h.traced, fates_append, broken.fates]
  refine ⟨by simp, by simp, ?_, begins_called ((whole.streamOf? category).trans known), .refl,
    broken.free, ?_, ?_, ?_, by simp [all]⟩
  · rw [h.told]
    rw [← List.append_nil (_ ++ _)]
    exact whole.move (.call (.runPending category))
  · rw [all, List.filterMap_append, List.filterMap_append, ← h.caught, filterMap_calmly]
    simp
  · rw [all, h.told, startedOn_append, h.started, broken.started, List.map_append, List.map_append,
      map_calmly]
    simp
  · have counted : x.machine.world.completedAt s = _ := broken.completed
    have earlier := h.completed
    simp only [Machine.called, all, List.length_append, List.length_singleton, calmly,
      List.length_map]
    omega

theorem next (h : Ongoing category s m₀ x before shown m₁ trace seen) (sound : m₀.Sound past)
    (known : m₀.world.streamOf? category = some s) (step : Next category x y) :
    ∃ before shown m₁ trace seen, Ongoing category s m₀ y before shown m₁ trace seen := by
  cases step with
  | go i t r found covered goes =>
    refine ⟨before, shown, m₁, trace ++ [Pace.mk t r], seen ++ r.seen, { h with
      traced := ?_, told := ?_, run := h.run.go i t r found covered goes }⟩
    · rw [h.traced, List.append_assoc]
    · rw [h.told, List.append_assoc]
  | again panic unwound => exact ⟨_, _, _, _, _, h.again sound known unwound⟩

end Ongoing

theorem Reached.ongoing (h : Reached category m₀ x) (sound : m₀.Sound past)
    (known : m₀.world.streamOf? category = some s) (free : m₀.world.executingAt s = false) :
    ∃ before shown m₁ trace seen, Ongoing category s m₀ x before shown m₁ trace seen := by
  induction h with
  | refl => exact ⟨_, _, _, _, _, .init known free⟩
  | tail _ step ih =>
    obtain ⟨before, shown, m₁, trace, seen, ongoing⟩ := ih
    exact ongoing.next sound known step

/-- What host code has in the end: as many calls have unwound as messages have panicked, in the
order of the queue, and the last call has counted the messages behind those. -/
structure Recovered (s : Nat) (m₀ : Machine) (x : Retry) (reply : Reply)
    (messages : List Message) : Prop where
  once : (fates s x.trace).map (·.1) = messages
  started : startedOn s x.seen = messages
  caught : x.caught = (fates s x.trace).filterMap (·.2)
  reply : reply = .count ((fates s x.trace).rtakeWhile (·.2.isNone)).length
  completed : x.machine.world.completedAt s + x.caught.length =
    m₀.world.completedAt s + messages.length
  empty : x.machine.world.queueAt s = []
  free : x.machine.world.executingAt s = false

/-- Behind the last message that has panicked are those of the last call. -/
theorem rtakeWhile_fates {fates : List Fate} (settled : ∀ f ∈ fates.getLast?, f.2 ≠ none)
    (firsts : List Message) : (fates ++ calmly firsts).rtakeWhile (·.2.isNone) = calmly firsts := by
  have stop : fates.rtakeWhile (·.2.isNone) = [] := by
    rw [List.rtakeWhile_eq_nil_iff]
    intro some
    have last := settled _ (List.getLast?_eq_some_getLast some)
    simpa [Option.isNone_iff_eq_none] using last
  induction firsts using List.reverseRecOn with
  | nil => simpa [calmly] using stop
  | append_singleton firsts message ih =>
    have grown : calmly (firsts ++ [message]) = calmly firsts ++ [(message, none)] := by
      simp [calmly]
    rw [grown, ← List.append_assoc, List.rtakeWhile_concat_pos _ _ _ (by simp), ih]

theorem Reached.recovered (h : Reached category m₀ x) (sound : m₀.Sound past)
    (known : m₀.world.streamOf? category = some s) (free : m₀.world.executingAt s = false)
    {reply : Reply} (returned : x.machine.outcome? x.place = some (.ok reply)) :
    Recovered s m₀ x reply (m₀.world.queueAt s ++ acceptedOn s x.seen) := by
  obtain ⟨before, shown, m₁, trace, seen, ongoing⟩ := h.ongoing sound known free
  obtain ⟨firsts, rfl, emptied⟩ := ongoing.run.emptied ongoing.begins (sound.after ongoing.earlier)
    ongoing.free (ends_of_outcome? returned)
  have all : fates s x.trace = fates s before ++ calmly firsts := by
    rw [ongoing.traced, fates_append, emptied.fates]
  have started : startedOn s x.seen = (fates s x.trace).map (·.1) := by
    rw [ongoing.told, startedOn_append, ongoing.started, emptied.started, all, List.map_append,
      map_calmly]
  have ledger := (ongoing.earlier.trans ongoing.run.reaches).ledger s
  rw [← ongoing.told, emptied.empty, List.append_nil] at ledger
  refine ⟨by rw [← started, ledger], ledger, ?_, ?_, ?_, emptied.empty, emptied.free⟩
  · rw [all, List.filterMap_append, filterMap_calmly, List.append_nil, ongoing.caught]
  · rw [all, rtakeWhile_fates ongoing.settled, calmly, List.length_map]
  · rw [← ledger, started, all]
    have counted : x.machine.world.completedAt s = _ := emptied.completed
    have earlier := ongoing.completed
    simp only [calmly, List.length_map, List.length_append]
    omega

end Retry

/-- No instruction of a stream is under way on a thread. -/
def Thread.Between (t : Thread) (s : Nat) : Prop := ∀ f ∈ t.frames, f.runs s = false

/-- An instruction of a stream has just been started by a call on a thread of its own. -/
def Thread.Starts (t : Thread) (s e : Nat) : Prop := t.control = .run ∧ ∃ message,
  t.frames = [.run ⟨message, s, .created⟩ [.infer, .compute], .drain s .execute e]

namespace Retry

/-- The call under way has just started an instruction. -/
def Starts (s e : Nat) (x : Retry) : Prop :=
  ∃ t, x.machine.threads[x.place]? = some t ∧ t.Starts s e

/-- The instruction has ended, and its call is about to take note of that. -/
def Leaves (s e : Nat) (x : Retry) : Prop :=
  ∃ t, x.machine.threads[x.place]? = some t ∧ t.frames = [.drain s .execute e]

/-- The messages submit no further work to their stream, and the instruction of each of them ends. -/
structure Tame (category : StreamCategory) (s : Nat) (m : Machine) : Prop where
  silent : ∀ x, Reached category m x → acceptedOn s x.seen = []
  ending : ∀ x e, Reached category m x → x.Starts s e → Inevitable (Next category) (Leaves s e) x

end Retry

/-- How far the drain of a call is from its next instruction, or from its end. -/
def Thread.distance (t : Thread) (idle : Bool) : Nat :=
  match t.frames, t.control with
  | [], .unwind _ => 6
  | .command _ :: _, _ => 5
  | .drain _ .enter _ :: _, _ => 4
  | .drain _ .take _ :: _, _ => 3
  | .drain _ .execute _ :: _, _ => 7
  | .drain _ .leave _ :: _, _ => if idle then 2 else 6
  | .drain _ .recheck _ :: _, _ => if idle then 1 else 5
  | _, _ => 0

/-- What is left to do for the calls to a stream, messages first. -/
def World.effort (w : World) (s : Nat) (t : Thread) : Nat :=
  8 * (w.queueAt s).length + t.distance (w.queueAt s).isEmpty

theorem World.effort_of_same {w w' : World} {s : Nat} {t t' : Thread}
    (same : w'.queueAt s = w.queueAt s)
    (less : t'.distance (w.queueAt s).isEmpty < t.distance (w.queueAt s).isEmpty) :
    w'.effort s t' < w.effort s t := by
  rw [effort, effort, same]
  omega

/-- A step between two instructions leaves less to do, or starts the next one. -/
inductive Nearer (s : Nat) (w : World) (t : Thread) (w' : World) (t' : Thread) : Prop
  | less (between : t'.Between s) (effort : w'.effort s t' < w.effort s t)
  | start (e : Nat) (starts : t'.Starts s e)
      (queue : (w'.queueAt s).length < (w.queueAt s).length)

/-- From one instruction to the next a drain has less and less to do. -/
theorem Turn.nearer {w : World} {t : Thread} {r : Step} {s e : Nat} {p : DrainPoint} (h : Turn w t r)
    (frames : t.frames = [.drain s p e]) (run : t.control = .run) (idle : p ≠ .execute) :
    Nearer s w t (w.after r.deed) r.thread := by
  cases h with
  | calm frame rest added frames' calm | push frame rest _ _ _ _ frames' calm
  | drain frame rest added _ frames' calm | enlist frame rest _ frames' calm =>
    rw [frames] at frames'
    cases frames'
    exact calm.elim
  | dismiss x saved rest frames' | proceed i i' phases phases' rest added seen frames'
  | finish x i phases rest seen frames' =>
    rw [frames] at frames'
    cases frames'
  | complete i e q rest reply frames' control | abandon i e q rest panic frames' control =>
    rw [run] at control
    cases control
  | start i e q rest message queue frames' _ point first =>
    rw [frames] at frames'
    cases frames'
    refine .start e ⟨rfl, message, rfl⟩ ?_
    rw [World.queueAt_pop, if_pos rfl, first]
    simp
  | busy i e rest frames' | seize i e rest frames' | yield i e rest frames' =>
    rw [frames] at frames'
    cases frames'
    refine .less (by simp [Thread.Between, Thread.give, Thread.goto, Frame.runs])
      (World.effort_of_same (by simp) ?_)
    simp only [Thread.distance, frames, Thread.give, Thread.goto]
    first | omega | split <;> omega
  | dry i e q rest frames' _ point empty =>
    rw [frames] at frames'
    cases frames'
    obtain rfl := point.resolve_right idle
    refine .less (by simp [Thread.Between, Thread.goto, Frame.runs])
      (World.effort_of_same (by simp) ?_)
    simp [Thread.distance, frames, Thread.goto, empty]
  | rest i e rest frames' _ empty =>
    rw [frames] at frames'
    cases frames'
    refine .less (by simp [Thread.Between, Thread.give]) (World.effort_of_same (by simp) ?_)
    simp [Thread.distance, frames, Thread.give, empty]
  | again i e rest frames' _ more =>
    rw [frames] at frames'
    cases frames'
    refine .less (by simp [Thread.Between, Thread.goto, Frame.runs])
      (World.effort_of_same (by simp) ?_)
    simp [Thread.distance, frames, Thread.goto, more]

/-- Between two instructions a call can go on, without waiting for anybody, and comes nearer to its
end as it does. -/
theorem Front.nearer {s : Nat} {taken : Bool} {m : Machine} {trace : List Pace}
    {seen : List Occurrence} {t : Thread} (h : Front s [] taken m.world trace seen t)
    (between : t.Between s) (live : t.frames ≠ []) :
    (∀ ids, ¬ t.WaitsFor ids) ∧ (∃ r, t.Goes m r) ∧
      ∀ r, t.Goes m r → Nearer s m.world t (m.world.after r.deed) r.thread := by
  have busy {f : Frame} (frames : t.frames = [f]) (other : ∀ ids, f ≠ .join ids) (ids : List Nat) :
      ¬ t.WaitsFor ids := by
    rintro ⟨-, outer, join⟩
    rw [frames] at join
    exact other ids (List.cons.inj join).1
  cases h with
  | returned _ frames | unwound _ _ _ frames => exact (live frames).elim
  | inside firsts inner i phases frames own =>
    have none := between (.run i phases) (by simp [frames])
    simp [Frame.runs, own] at none
  | calling category known frames run =>
    refine ⟨busy frames (by simp),
      ⟨⟨.nothing, t.goto [.drain s .enter 0], [], []⟩, .step ?_⟩,
      fun r goes => ?_⟩
    · simp [Thread.step?, frames, run, Thread.stepFrame?, Thread.stepCommand?, known]
    · obtain step := goes.of_frame frames run (by simp)
      simp only [Thread.stepFrame?, Thread.stepCommand?, known, Option.some.injEq] at step
      subst step
      refine .less (by simp [Thread.Between, Thread.goto, Frame.runs]) (World.effort_of_same rfl ?_)
      simp [Thread.distance, frames, Thread.goto]
  | loop firsts p frames run idle =>
    refine ⟨busy frames (by simp), ⟨t.stepDrain m.world s p firsts.length [], .step ?_⟩,
      fun r goes => ?_⟩
    · simp [Thread.step?, frames, run, Thread.stepFrame?]
    · exact goes.turn_stride.1.nearer frames run idle
  | replied firsts last reply frames control =>
    refine ⟨busy frames (by simp), ⟨_, .step (by rw [Thread.step?, frames, control])⟩,
      fun r goes => ?_⟩
    obtain rfl := goes.of_reply frames control
    refine .less (by simp [Thread.Between, Thread.stepReply, Thread.goto, Frame.runs])
      (World.effort_of_same (World.queueAt_complete m.world s s) ?_)
    simp [Thread.distance, frames, Thread.stepReply, Thread.goto]
  | broken firsts last panic frames control =>
    refine ⟨busy frames (by simp), ⟨_, .step (by rw [Thread.step?, frames, control])⟩,
      fun r goes => ?_⟩
    obtain rfl := goes.of_unwind frames control
    refine .less (by simp [Thread.Between, Thread.stepUnwind, Thread.fail])
      (World.effort_of_same (World.queueAt_setExecuting m.world s s false) ?_)
    simp [Thread.distance, frames, Thread.stepUnwind, Thread.fail]

namespace Retry

variable {category : StreamCategory} {s : Nat} {m₀ m₁ : Machine} {x y : Retry}
  {before trace : List Pace} {past shown seen : List Occurrence}

/-- While the thread of the call does not wait for others, it alone goes on. -/
theorem Ongoing.next_of_live (h : Ongoing category s m₀ x before shown m₁ trace seen) {t : Thread}
    (found : x.machine.threads[x.place]? = some t) (live : t.frames ≠ [])
    (busy : ∀ ids, ¬ t.WaitsFor ids) (step : Next category x y) : ∃ r, t.Goes x.machine r ∧
      y.machine.threads[y.place]? = some r.thread ∧
      y.machine.world = x.machine.world.after r.deed ∧ y.seen = x.seen ++ r.seen := by
  cases step with
  | again panic unwound =>
    obtain ⟨z, found', none, -⟩ : x.call.Ends x.machine (.unwind panic) := ends_of_outcome? unwound
    obtain rfl : z = t := Option.some.inj (found'.symm.trans found)
    exact (live none).elim
  | go i z r found' covered goes =>
    obtain ⟨rfl, -⟩ | above := covered
    · obtain rfl : z = t := Option.some.inj (found'.symm.trans found)
      exact ⟨r, goes, Machine.getElem?_stepped found r, rfl, rfl⟩
    · have ended := (h.begins.awaited.run h.run).ended found busy above found'
      exact (goes.frames_ne_nil ended).elim

/-- Once a call has unwound there is only the next one to make. -/
theorem Ongoing.next_of_unwound (h : Ongoing category s m₀ x before shown m₁ trace seen) {t : Thread}
    (found : x.machine.threads[x.place]? = some t) (none : t.frames = []) {panic : Panic}
    (control : t.control = .unwind panic) : (∃ y, Next category x y) ∧ ∀ y, Next category x y →
      y.machine.threads[y.place]? = some (.ofCommand (.runPending category)) ∧
        y.machine.world = x.machine.world ∧ y.seen = x.seen := by
  have unwound : x.machine.outcome? x.place = some (.error panic) := by
    simp [Machine.outcome?, found, Thread.outcome?, none, control]
  refine ⟨⟨_, .again panic unwound⟩, fun y step => ?_⟩
  cases step with
  | again => exact ⟨by simp [Machine.called], rfl, rfl⟩
  | go i z r found' covered goes =>
    refine (goes.frames_ne_nil ?_).elim
    obtain ⟨rfl, -⟩ | above := covered
    · obtain rfl : z = t := Option.some.inj (found'.symm.trans found)
      exact none
    · refine (h.begins.awaited.run h.run).ended found ?_ above found'
      rintro ids ⟨-, outer, join⟩
      rw [none] at join
      cases join

/-- Between two instructions there is a next move, and each such move comes nearer to the end. -/
theorem Reached.nearer (h : Reached category m₀ x) (sound : m₀.Sound past)
    (known : m₀.world.streamOf? category = some s) (free : m₀.world.executingAt s = false)
    {t : Thread} (found : x.machine.threads[x.place]? = some t) (between : t.Between s)
    (unfinished : ∀ reply, x.machine.outcome? x.place ≠ some (.ok reply)) :
    (∃ y, Next category x y) ∧ ∀ y, Next category x y →
      ∃ u, y.machine.threads[y.place]? = some u ∧ Nearer s x.machine.world t y.machine.world u := by
  obtain ⟨before, shown, m₁, trace, seen, ongoing⟩ := h.ongoing sound known free
  obtain ⟨z, found', front⟩ := ongoing.run.front ongoing.begins (sound.after ongoing.earlier)
  obtain rfl : z = t := Option.some.inj (found'.symm.trans found)
  by_cases live : z.frames = []
  · obtain ⟨firsts, control, -⟩ | ⟨firsts, last, panic, control, -⟩ := front.of_ended live
    · refine (unfinished (.count firsts.length) ?_).elim
      simp [Machine.outcome?, found, Thread.outcome?, live, control]
    · obtain ⟨can, all⟩ := ongoing.next_of_unwound found live control
      refine ⟨can, fun y step => ?_⟩
      obtain ⟨foundy, world, -⟩ := all y step
      rw [world]
      refine ⟨_, foundy, .less (by simp [Thread.Between, Thread.ofCommand, Frame.runs])
        (World.effort_of_same rfl ?_)⟩
      simp [Thread.distance, live, control, Thread.ofCommand]
  · obtain ⟨busy, ⟨r, goes⟩, all⟩ := front.nearer between live
    have covered : x.call.Covers x.place z :=
      .inl ⟨rfl, by simpa [call, List.length_pos_iff] using live⟩
    refine ⟨⟨_, .go x.place z r found covered goes⟩, fun y step => ?_⟩
    obtain ⟨r, goes, foundy, world, -⟩ := ongoing.next_of_live found live busy step
    rw [world]
    exact ⟨r.thread, foundy, all r goes⟩

theorem exists_seen (path : ReflTransGen (Next category) x y) : ∃ new, y.seen = x.seen ++ new := by
  induction path with
  | refl => exact ⟨[], by simp⟩
  | tail _ step ih =>
    obtain ⟨new, seen⟩ := ih
    cases step with
    | go i t r => exact ⟨new ++ r.seen, by simp [seen]⟩
    | again => exact ⟨new, seen⟩

namespace Tame

theorem length_queue (tame : Tame category s m₀) (h : Reached category m₀ x) (sound : m₀.Sound past)
    (known : m₀.world.streamOf? category = some s) (free : m₀.world.executingAt s = false) :
    (startedOn s x.seen).length + (x.machine.world.queueAt s).length =
      (m₀.world.queueAt s).length := by
  obtain ⟨before, shown, m₁, trace, seen, ongoing⟩ := h.ongoing sound known free
  have ledger := (ongoing.earlier.trans ongoing.run.reaches).ledger s
  rw [← ongoing.told, tame.silent x h, List.append_nil] at ledger
  rw [← ledger, List.length_append]

/-- Messages that have left the queue do not come back. -/
theorem length_queue_le (tame : Tame category s m₀) (h : Reached category m₀ x)
    (path : ReflTransGen (Next category) x y) (sound : m₀.Sound past)
    (known : m₀.world.streamOf? category = some s) (free : m₀.world.executingAt s = false) :
    (y.machine.world.queueAt s).length ≤ (x.machine.world.queueAt s).length := by
  have before := tame.length_queue h sound known free
  have after := tame.length_queue (h.trans path) sound known free
  obtain ⟨new, seen⟩ := exists_seen path
  rw [seen, startedOn_append, List.length_append] at after
  omega

/-- From between two instructions the calls come to their end. -/
theorem returns (tame : Tame category s m₀) (sound : m₀.Sound past)
    (known : m₀.world.streamOf? category = some s) (free : m₀.world.executingAt s = false)
    (n : Nat) (x : Retry) (t : Thread) (h : Reached category m₀ x)
    (found : x.machine.threads[x.place]? = some t) (between : t.Between s)
    (effort : x.machine.world.effort s t = n) : Inevitable (Next category)
      (fun y => ∃ reply, y.machine.outcome? y.place = some (.ok reply)) x := by
  induction n using Nat.strong_induction_on generalizing x t with
  | _ n ih =>
    by_cases finished : ∃ reply, x.machine.outcome? x.place = some (.ok reply)
    · exact .now finished
    obtain ⟨can, all⟩ := h.nearer sound known free found between (by simpa using finished)
    refine .later can fun y step => ?_
    obtain ⟨u, foundy, near⟩ := all y step
    cases near with
    | less between less => exact ih _ (effort ▸ less) y u (h.tail step) foundy between rfl
    | start e starts queue =>
      refine (tame.ending y e (h.tail step) ⟨u, foundy, starts⟩).bind fun z path leaves => ?_
      obtain ⟨v, foundz, frames⟩ := leaves
      refine ih _ ?_ z v ((h.tail step).trans path) foundz
        (by simp [Thread.Between, frames, Frame.runs]) rfl
      have fewer := tame.length_queue_le (h.tail step) path sound known free
      have last : v.distance (z.machine.world.queueAt s).isEmpty = 7 := by
        simp [Thread.distance, frames]
      rw [← effort, World.effort, World.effort, last]
      omega

/-- The calls come to their end, and then all messages have run. -/
theorem recovers (tame : Tame category s m₀) (sound : m₀.Sound past)
    (known : m₀.world.streamOf? category = some s) (free : m₀.world.executingAt s = false) :
    Inevitable (Next category) (fun x => ∃ reply, x.machine.outcome? x.place = some (.ok reply) ∧
      Recovered s m₀ x reply (m₀.world.queueAt s)) (first category m₀) := by
  have between : (Thread.ofCommand (.runPending category)).Between s := by
    simp [Thread.Between, Thread.ofCommand, Frame.runs]
  have ends := tame.returns sound known free _ (first category m₀) _ .refl
    (by simp [first, Machine.called]) between rfl
  refine ends.bind fun x path ended => ?_
  obtain ⟨reply, returned⟩ := ended
  refine .now ⟨reply, returned, ?_⟩
  have recovered := Reached.recovered path sound known free returned
  rwa [tame.silent x path, List.append_nil] at recovered

end Tame

end Retry

end StreamMachine
