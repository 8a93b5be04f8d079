import StreamMachine.Proofs.Forest
import StreamMachine.Proofs.Retry

/-! A call for the pending instructions of a stream whose instructions submit more work to it. The
queue grows while it is drained, but the work that is left, in the queue or still to come of it,
becomes less with each instruction, and it is taken up level by level. -/
namespace StreamMachine

open Relation (ReflTransGen)

/-- A call under way, with what it has gone through. -/
structure Journey where
  machine : Machine
  trace : List Pace := []
  seen : List Occurrence := []

namespace Journey

/-- A thread has taken a step. -/
def stepped (x : Journey) (i : Nat) (t : Thread) (r : Step) : Journey :=
  ⟨x.machine.stepped i r, x.trace ++ [⟨t, r⟩], x.seen ++ r.seen⟩

end Journey

namespace Call

/-- Any thread of a call goes on that can. -/
inductive Next (c : Call) (x : Journey) : Journey → Prop
  | go (i : Nat) (t : Thread) (r : Step) (found : x.machine.threads[i]? = some t)
      (covered : c.Covers i t) (goes : t.Goes x.machine r) : Next c x (x.stepped i t r)

/-- How far a call can come. -/
def Reached (c : Call) (m : Machine) : Journey → Prop := ReflTransGen c.Next { machine := m }

/-- A call has just started the instruction of a message, after so many others. -/
def Starts (c : Call) (s e : Nat) (message : Message) (m : Machine) : Prop :=
  ∃ t, m.threads[c.place]? = some t ∧ t.control = .run ∧
    t.frames = .run ⟨message, s, .created⟩ [.infer, .compute] :: .drain s .execute e :: c.outer

/-- The instruction has returned, and its call is about to take note of that. -/
def Finishes (c : Call) (s e : Nat) (m : Machine) : Prop :=
  ∃ t reply, m.threads[c.place]? = some t ∧ t.control = .reply reply ∧
    t.frames = .drain s .execute e :: c.outer

/-- The queue of a stream holds the roots of a forest, and each instruction, when its turn comes,
submits to the stream what stands behind its message in the forest, and returns. What else it does,
above all whether it calls for the stream in between, is left open. -/
structure Grows (c : Call) (s : Nat) (forest : List Work) (m : Machine) : Prop where
  roots : m.world.queueAt s = forest.map (·.message)
  submits : ∀ x before node after, c.Reached m x →
    Work.breadthFirst forest = before ++ node :: after →
    startedOn s x.seen = (before ++ [node]).map (·.message) →
    c.Starts s before.length node.message x.machine →
    Inevitable c.Next (fun y => c.Finishes s before.length y.machine ∧
      acceptedOn s y.seen = acceptedOn s x.seen ++ node.next.map (·.message)) x

variable {c : Call} {s : Nat} {m₀ : Machine} {x y : Journey} {past : List Occurrence}

theorem Reached.runs (h : c.Reached m₀ x) : c.Runs m₀ x.trace x.seen x.machine := by
  induction h with
  | refl => exact .refl
  | tail _ step ih =>
    cases step with
    | go i t r found covered goes => exact ih.go i t r found covered goes

theorem exists_seen (path : ReflTransGen c.Next x y) : ∃ new, y.seen = x.seen ++ new := by
  induction path with
  | refl => exact ⟨[], by simp⟩
  | tail _ step ih =>
    obtain ⟨new, seen⟩ := ih
    cases step with
    | go i t r => exact ⟨new ++ r.seen, by simp [Journey.stepped, seen]⟩

/-- The thread of a call with its stack, and the messages that the stream has started and accepted in
the course of the call. -/
structure At (c : Call) (s : Nat) (m₀ : Machine) (x : Journey) (frames : List Frame)
    (control : Control) (started accepted : List Message) : Prop where
  reached : c.Reached m₀ x
  thread : ∃ t, x.machine.threads[c.place]? = some t ∧ t.frames = frames ∧ t.control = control
  started : startedOn s x.seen = started
  accepted : acceptedOn s x.seen = accepted

end Call

/-- Where a step leads its thread, with the messages that a stream starts and accepts in it. -/
structure Step.Leads (r : Step) (s : Nat) (frames : List Frame) (control : Control)
    (started accepted : List Message) : Prop where
  frames : r.thread.frames = frames
  control : r.thread.control = control
  started : startedOn s r.seen = started
  accepted : acceptedOn s r.seen = accepted

namespace Thread

variable {w : World} {t : Thread} {s e : Nat} {below : List Frame}

theorem step?_drain {p : DrainPoint} {fresh : Nat} {outcomes : Nat → Option (Except Panic Reply)}
    (frames : t.frames = .drain s p e :: below) (run : t.control = .run) :
    t.step? w fresh outcomes = some (t.stepDrain w s p e below) := by
  simp [step?, frames, run, stepFrame?]

theorem leads_dry (empty : w.queueAt s = []) : (t.stepDrain w s .take e below).Leads s
    (.drain s .leave e :: below) .run [] [] := by
  rw [World.queueAt] at empty
  simp only [stepDrain, empty]
  exact ⟨rfl, rfl, rfl, rfl⟩

theorem leads_start {message : Message} {rest : List Message}
    (first : w.queueAt s = message :: rest) : (t.stepDrain w s .take e below).Leads s
      (.run ⟨message, s, .created⟩ [.infer, .compute] :: .drain s .execute e :: below) .run
      [message] [] := by
  rw [World.queueAt] at first
  simp only [stepDrain, first]
  exact ⟨rfl, rfl, by simp [startedOn, Occurrence.startedOn?], rfl⟩

theorem leads_yield : (t.stepDrain w s .leave e below).Leads s (.drain s .recheck e :: below) .run
    [] [] := ⟨rfl, rfl, rfl, rfl⟩

theorem leads_rest (empty : w.queueAt s = []) : (t.stepDrain w s .recheck e below).Leads s below
    (.reply (.count e)) [] [] := by
  have none : (w.streams[s]?).elim true (·.queue.isEmpty) = true := by
    cases found : w.streams[s]? <;> simp_all [World.queueAt]
  simp only [stepDrain, none, if_true]
  exact ⟨rfl, rfl, rfl, rfl⟩

theorem leads_seize (known : s < w.streams.length) (free : w.executingAt s = false) :
    (t.stepDrain w s .enter e below).Leads s (.drain s .take e :: below) .run [] [] := by
  have idle : (w.streams[s]?).elim true (·.executing) = false := by
    rw [World.executingAt, List.getElem?_eq_getElem known] at free
    rw [List.getElem?_eq_getElem known]
    exact free
  simp only [stepDrain, idle]
  exact ⟨rfl, rfl, rfl, rfl⟩

theorem leads_busy (held : w.executingAt s = true) : (t.stepDrain w s .enter e below).Leads s below
    (.reply (.count e)) [] [] := by
  have busy : (w.streams[s]?).elim true (·.executing) = true := by
    cases found : w.streams[s]? <;> simp_all [World.executingAt]
  simp only [stepDrain, busy, if_true]
  exact ⟨rfl, rfl, rfl, rfl⟩

end Thread

/-- Where the thread of a call stands right on its drain, it is in the loop, or an instruction has
just ended. -/
theorem Front.of_drain {s e : Nat} {outer : List Frame} {taken : Bool} {w : World} {trace : List Pace}
    {seen : List Occurrence} {t : Thread} {p : DrainPoint} (h : Front s outer taken w trace seen t)
    (frames : t.frames = .drain s p e :: outer) :
    t.control = .run ∧ (p = .enter → w.executingAt s = true → taken = true) ∨
      t.control ≠ .run ∧ (startedOn s seen).length = e + 1 := by
  cases h with
  | loop firsts q frames' run idle tally guard =>
    rw [frames] at frames'
    cases frames'
    exact .inl ⟨run, fun enter held => (guard (.inl enter) held).1⟩
  | replied firsts last reply frames' control tally
  | broken firsts last panic frames' control tally =>
    rw [frames] at frames'
    cases frames'
    exact .inr ⟨by simp [control], by simp [tally.started]⟩
  | calling _ _ frames' | returned _ frames' | unwound _ _ _ frames' =>
    simp [frames] at frames'
  | inside firsts inner i phases frames' =>
    rw [frames] at frames'
    cases inner with
    | nil => cases frames'
    | cons f inner =>
      have := congrArg List.length (List.cons.inj frames').2
      simp at this
      omega

/-- A thread steps as its innermost frame says, and neither waits nor gives up a wait. -/
def Frame.Busy : Frame → Prop
  | .join _ | .action .. => False
  | _ => True

namespace Call

variable {c : Call} {s : Nat} {m₀ : Machine} {x y : Journey} {past : List Occurrence}
  {goal : Journey → Prop}

namespace At

variable {frames frames' below : List Frame} {control control' : Control} {f : Frame} {e : Nat}
  {started accepted new more : List Message}

theorem ledger (h : c.At s m₀ x frames control started accepted) :
    started ++ x.machine.world.queueAt s = m₀.world.queueAt s ++ accepted := by
  have ledger := h.reached.runs.reaches.ledger s
  rwa [h.started, h.accepted] at ledger

/-- While the thread of a call neither waits nor is back, the call goes on by its next step, and by no
other. -/
theorem on (h : c.At s m₀ x (f :: below) control started accepted) (begins : c.Begins s m₀)
    (under : c.outer.length ≤ below.length) (busy : f.Busy)
    (step : ∀ t : Thread, t.frames = f :: below → t.control = control → ∃ r,
      t.step? x.machine.world x.machine.threads.length x.machine.outcome? = some r ∧
        r.Leads s frames' control' new more)
    (onward : ∀ y, c.At s m₀ y frames' control' (started ++ new) (accepted ++ more) →
      Inevitable c.Next goal y) : Inevitable c.Next goal x := by
  obtain ⟨t, found, frames, control⟩ := h.thread
  obtain ⟨r, taken, leads⟩ := step t frames control
  have covered : c.Covers c.place t := .inl ⟨rfl, by simpa [frames, Nat.lt_succ_iff] using under⟩
  have next : c.Next x (x.stepped c.place t r) := .go c.place t r found covered (.step taken)
  refine .later ⟨_, next⟩ fun y other => ?_
  cases other with
  | go i z r' found' covered' goes =>
    have free : ∀ ids, ¬ t.WaitsFor ids := by
      rintro ids ⟨-, outer, join⟩
      rw [frames] at join
      cases join
      exact busy
    obtain ⟨rfl, rfl, -⟩ :=
      (begins.awaited.run h.reached.runs).own found free found' covered' goes
    cases goes with
    | expire a gate rest frames' =>
      rw [frames] at frames'
      cases frames'
      exact busy.elim
    | step taken' =>
      obtain rfl := Option.some.inj (taken.symm.trans taken')
      refine onward _ ⟨h.reached.tail next,
        ⟨_, Machine.getElem?_stepped found r, leads.frames, leads.control⟩, ?_, ?_⟩
      · rw [Journey.stepped, startedOn_append, h.started, leads.started]
      · rw [Journey.stepped, acceptedOn_append, h.accepted, leads.accepted]

/-- The call goes on, and nothing shows on its stream. -/
theorem silently (h : c.At s m₀ x (f :: below) control started accepted) (begins : c.Begins s m₀)
    (under : c.outer.length ≤ below.length) (busy : f.Busy)
    (step : ∀ t : Thread, t.frames = f :: below → t.control = control → ∃ r,
      t.step? x.machine.world x.machine.threads.length x.machine.outcome? = some r ∧
        r.Leads s frames' control' [] [])
    (onward : ∀ y, c.At s m₀ y frames' control' started accepted → Inevitable c.Next goal y) :
    Inevitable c.Next goal x :=
  h.on begins under busy step fun y h => onward y (by simpa using h)

/-- The drain of a call finds the queue empty, gives up the guard and returns. -/
theorem rests (h : c.At s m₀ x (.drain s .take e :: c.outer) .run started accepted)
    (begins : c.Begins s m₀) (all : started = m₀.world.queueAt s ++ accepted) :
    Inevitable c.Next (fun y => c.Ends y.machine (.reply (.count e)) ∧
      startedOn s y.seen = started) x := by
  have empty {y : Journey} {p : DrainPoint}
      (h : c.At s m₀ y (.drain s p e :: c.outer) .run started accepted) :
      y.machine.world.queueAt s = [] := by
    have ledger := h.ledger
    rwa [← all, List.append_right_eq_self] at ledger
  refine h.silently begins le_rfl trivial (fun t frames run =>
      ⟨_, Thread.step?_drain frames run, Thread.leads_dry (empty h)⟩) fun y h => ?_
  refine h.silently begins le_rfl trivial (fun t frames run =>
      ⟨_, Thread.step?_drain frames run, Thread.leads_yield⟩) fun z h => ?_
  refine h.silently begins le_rfl trivial (fun t frames run =>
      ⟨_, Thread.step?_drain frames run, Thread.leads_rest (empty h)⟩) fun z h => ?_
  obtain ⟨t, found, frames, control⟩ := h.thread
  exact .now ⟨⟨t, found, frames, control⟩, h.started⟩

/-- The drain of a call starts the next instruction. -/
theorem starts {message : Message} {rest : List Message}
    (h : c.At s m₀ x (.drain s .take e :: c.outer) .run started accepted) (begins : c.Begins s m₀)
    (first : m₀.world.queueAt s ++ accepted = started ++ message :: rest)
    (onward : ∀ y, c.At s m₀ y
      (.run ⟨message, s, .created⟩ [.infer, .compute] :: .drain s .execute e :: c.outer) .run
      (started ++ [message]) accepted → Inevitable c.Next goal y) : Inevitable c.Next goal x := by
  have queue : x.machine.world.queueAt s = message :: rest := by
    have ledger := h.ledger
    rwa [first, List.append_cancel_left_eq] at ledger
  refine h.on begins le_rfl trivial (fun t frames run =>
    ⟨_, Thread.step?_drain frames run, Thread.leads_start queue⟩) fun y h => onward y ?_
  simpa using h

/-- An instruction has returned to the drain of a call. -/
theorem completes {reply : Reply}
    (h : c.At s m₀ x (.drain s .execute e :: c.outer) (.reply reply) started accepted)
    (begins : c.Begins s m₀) (onward : ∀ y,
      c.At s m₀ y (.drain s .take (e + 1) :: c.outer) .run started accepted →
      Inevitable c.Next goal y) : Inevitable c.Next goal x := by
  refine h.silently begins le_rfl trivial (fun t frames control =>
    ⟨t.stepReply x.machine.world reply (.drain s .execute e) c.outer, ?_, ?_⟩) onward
  · simp [Thread.step?, frames, control]
  · exact ⟨rfl, rfl, by simp [Thread.stepReply, startedOn, Occurrence.startedOn?],
      by simp [Thread.stepReply, acceptedOn, Occurrence.acceptedOn?]⟩

end At

/-- With the guard free, a call takes it and begins with the queue as it is. -/
theorem Begins.takes (begins : c.Begins s m₀) (sound : m₀.Sound past)
    (free : m₀.world.executingAt s = false) (onward : ∀ x,
      c.At s m₀ x (.drain s .take 0 :: c.outer) .run [] [] → Inevitable c.Next goal x) :
    Inevitable c.Next goal { machine := m₀ } := by
  have enters {x : Journey} (h : c.At s m₀ x (.drain s .enter 0 :: c.outer) .run [] []) :
      Inevitable c.Next goal x := by
    have known := begins.known sound
    rw [← h.reached.runs.reaches.length_streams] at known
    -- The guard is as free as it was when the call began.
    have free : x.machine.world.executingAt s = false := by
      by_contra taken
      obtain ⟨t, found, frames, run⟩ := h.thread
      obtain ⟨z, found', front⟩ := h.reached.runs.front begins sound
      obtain rfl := Option.some.inj (found.symm.trans found')
      obtain ⟨-, guard⟩ | ⟨ended, -⟩ := front.of_drain frames
      · simp [guard rfl (by simpa using taken)] at free
      · exact ended run
    exact h.silently begins le_rfl trivial (fun t frames run =>
      ⟨_, Thread.step?_drain frames run, Thread.leads_seize known free⟩) onward
  obtain ⟨t, found, run, frames | ⟨category, streamOf, frames⟩⟩ := begins.thread
  · exact enters ⟨.refl, ⟨t, found, frames, run⟩, rfl, rfl⟩
  · have h : c.At s m₀ { machine := m₀ } (.command (.runPending category) :: c.outer) .run [] [] :=
      ⟨.refl, ⟨t, found, frames, run⟩, rfl, rfl⟩
    refine h.silently begins le_rfl trivial (fun t frames run =>
      ⟨⟨.nothing, t.goto (.drain s .enter 0 :: c.outer), [], []⟩, ?_, rfl, rfl, rfl, rfl⟩)
      fun y h => enters h
    simp [Thread.step?, frames, run, Thread.stepFrame?, Thread.stepCommand?, streamOf]

/-- When an instruction has returned, the drain has started no other one behind it. -/
theorem Finishes.at {e : Nat} {started : List Message} (h : c.Finishes s e y.machine)
    (begins : c.Begins s m₀) (sound : m₀.Sound past) (reached : c.Reached m₀ x)
    (path : ReflTransGen c.Next x y) (shown : startedOn s x.seen = started)
    (length : started.length = e + 1) : ∃ reply,
      c.At s m₀ y (.drain s .execute e :: c.outer) (.reply reply) started (acceptedOn s y.seen) := by
  have there : c.Reached m₀ y := reached.trans path
  obtain ⟨t, reply, found, control, frames⟩ := h
  obtain ⟨new, seen⟩ := exists_seen path
  have total : (startedOn s y.seen).length = e + 1 := by
    obtain ⟨z, found', front⟩ := there.runs.front begins sound
    obtain rfl := Option.some.inj (found'.symm.trans found)
    obtain ⟨run, -⟩ | ⟨-, length⟩ := front.of_drain frames
    · simp [control] at run
    · exact length
  rw [seen, startedOn_append, shown, List.length_append] at total
  have none : startedOn s new = [] := List.eq_nil_of_length_eq_zero (by omega)
  exact ⟨reply, there, ⟨t, found, frames, control⟩, by rw [seen, startedOn_append, shown, none,
    List.append_nil], rfl⟩

/-- Level by level a forest is taken down, from whatever is done of it. -/
theorem Grows.fells {forest done pending : List Work} {accepted : List Message}
    (h : c.Grows s forest m₀) (begins : c.Begins s m₀) (sound : m₀.Sound past)
    (order : Work.breadthFirst forest = done ++ Work.inTurn pending)
    (ledger : m₀.world.queueAt s ++ accepted = (done ++ pending).map (·.message))
    (place : c.At s m₀ x (.drain s .take done.length :: c.outer) .run (done.map (·.message))
      accepted) :
    Inevitable c.Next (fun y =>
      c.Ends y.machine (.reply (.count (Work.breadthFirst forest).length)) ∧
        startedOn s y.seen = (Work.breadthFirst forest).map (·.message)) x := by
  induction pending using Work.inTurn.induct generalizing x done accepted with
  | case1 =>
    rw [Work.inTurn, List.append_nil] at order
    rw [List.append_nil] at ledger
    rw [order]
    exact place.rests begins ledger.symm
  | case2 node rest ih =>
    rw [Work.inTurn] at order
    rw [List.map_append, List.map_cons] at ledger
    refine place.starts begins ledger fun y inside => ?_
    have shown : startedOn s y.seen = (done ++ [node]).map (·.message) := by simpa using inside.started
    have starts : c.Starts s done.length node.message y.machine := by
      obtain ⟨t, found, frames, run⟩ := inside.thread
      exact ⟨t, found, run, frames⟩
    refine (h.submits y done node _ inside.reached order shown starts).bind fun z path finished => ?_
    obtain ⟨finishes, new⟩ := finished
    obtain ⟨reply, back⟩ := finishes.at begins sound inside.reached path shown (by simp)
    rw [new, inside.accepted] at back
    refine back.completes begins fun u next => ?_
    have order : Work.breadthFirst forest = (done ++ [node]) ++ Work.inTurn (rest ++ node.next) := by
      simp [order]
    have ledger : m₀.world.queueAt s ++ (accepted ++ node.next.map (·.message)) =
        ((done ++ [node]) ++ (rest ++ node.next)).map (·.message) := by
      rw [← List.append_assoc, ledger]
      simp
    exact ih order ledger (by simpa using next)

section Within

variable {m : Machine} {trace : List Pace} {seen : List Occurrence} {reply : Reply}

theorem Runs.recounts (run : c.Runs m₀ trace seen m) : m₀.Recounts trace seen m := by
  induction run with
  | refl => exact .refl
  | go run i t r found covered goes ih => exact ih.go i t r found goes

/-- A call returns by the last of its steps. -/
theorem Runs.returns (run : c.Runs m₀ trace seen m) (begins : c.Begins s m₀) (sound : m₀.Sound past)
    (ended : c.Ends m (.reply reply)) : ∃ before x, trace = before ++ [x] ∧
      x.returned? (·.stream = s) = some reply.toCount := by
  obtain ⟨z, foundz, frames, control⟩ := ended
  cases run with
  | refl =>
    obtain ⟨t, found, -, frames' | ⟨_, -, frames'⟩⟩ := begins.thread
    all_goals
      obtain rfl := Option.some.inj (found.symm.trans foundz)
      simp [frames] at frames'
  | @go m trace seen run i t r found covered goes =>
    refine ⟨trace, ⟨t, r⟩, rfl, ?_⟩
    obtain ⟨x, own, front⟩ := run.front begins sound
    have awaited := begins.awaited.run run
    obtain ⟨rfl, rfl⟩ : i = c.place ∧ t = x := by
      by_cases same : i = c.place
      · subst same
        exact ⟨rfl, Option.some.inj (found.symm.trans own)⟩
      · rw [Machine.getElem?_stepped_of_ne (List.getElem?_eq_some_iff.1 own).1 (Ne.symm same)] at foundz
        obtain rfl := Option.some.inj (own.symm.trans foundz)
        have idle := awaited.own own (by simp [Thread.WaitsFor, control]) found covered goes
        exact ⟨idle.1, idle.2.1⟩
    obtain rfl := Option.some.inj ((Machine.getElem?_stepped found r).symm.trans foundz)
    have under : c.outer.length < t.frames.length :=
      covered.elim And.right fun above => absurd awaited.early (Nat.not_lt.2 above)
    have drains {p : DrainPoint} {e : Nat} (stack : t.frames = .drain s p e :: c.outer) :
        Pace.returned? (·.stream = s) ⟨t, r⟩ = some reply.toCount := by
      simp [Pace.returned?, Thread.drainCall?, stack, control]
    cases front with
    | loop _ _ stack | replied _ _ _ stack | broken _ _ _ stack => exact drains stack
    | returned _ stack | unwound _ _ _ stack => simp [stack] at under
    | calling category known stack running =>
      have step := goes.of_frame stack running (by simp)
      simp only [Thread.stepFrame?, Thread.stepCommand?, known, Option.some.injEq] at step
      subst step
      simp [Thread.goto] at frames
    | inside firsts inner i phases stack =>
      have longer : c.outer.length < r.thread.frames.length := by
        cases inner with
        | nil =>
          obtain ⟨added, stack'⟩ := goes.turn_stride.1.above stack
          simp [stack']
          omega
        | cons f inner =>
          obtain ⟨added, stack'⟩ := goes.turn_stride.1.above stack
          simp [stack']
          omega
      rw [frames] at longer
      exact (lt_irrefl _ longer).elim

/-- The threads of a call that is back: those that were there before, but for its own, and those
that it has started. -/
theorem Runs.threads_eq (run : c.Runs m₀ trace seen m) (begins : c.Begins s m₀) {t : Thread}
    (found : m.threads[c.place]? = some t) :
    m.threads = m₀.threads.set c.place t ++ m.threads.drop c.floor := by
  have early := begins.awaited.early
  have floor := begins.floor
  have length := run.length_le
  refine List.ext_getElem? fun j => ?_
  by_cases low : j < c.floor
  · rw [List.getElem?_append_left (by simpa [← floor] using low)]
    by_cases same : j = c.place
    · rw [same, found, List.getElem?_set_self (by omega)]
    · rw [List.getElem?_set_ne (Ne.symm same), run.untouched floor.le low same]
  · rw [List.getElem?_append_right (by simpa [← floor] using low), List.getElem?_drop]
    congr 1
    simp only [List.length_set]
    omega

/-- A call that has returned has nothing more under way than there was when it began. -/
theorem Runs.underWay (run : c.Runs m₀ trace seen m) (begins : c.Begins s m₀)
    (ended : c.Ends m (.reply reply)) (which : DrainCall → Bool) :
    m.underWay which = m₀.underWay which := by
  obtain ⟨t, found, frames, control⟩ := ended
  obtain ⟨t₀, found₀, -, frames₀⟩ := begins.thread
  have idle : ∀ x ∈ m.threads.drop c.floor, x.frames = [] := by
    intro x hx
    obtain ⟨j, foundj⟩ := List.getElem?_of_mem hx
    rw [List.getElem?_drop] at foundj
    exact (begins.awaited.run run).ended found (by simp [Thread.WaitsFor, control])
      (Nat.le_add_right _ _) foundj
  have none : totalWeight (fun t => drainWeight which t.frames) (m.threads.drop c.floor) = 0 :=
    Machine.Ended.totalWeight_eq_zero (m := ⟨m.world, m.threads.drop c.floor⟩) idle
      fun t frames => by rw [frames]; rfl
  have set := totalWeight_set (fun t => drainWeight which t.frames) found₀ t
  have same : drainWeight which t₀.frames = drainWeight which t.frames := by
    obtain frames₀ | ⟨category, -, frames₀⟩ := frames₀ <;> simp [frames, frames₀, drainWeight]
  rw [Machine.underWay, run.threads_eq begins found, totalWeight_append, none, Machine.underWay]
  omega

/-- All calls to drain a stream return 0 that are made in the course of another one, which has taken
the guard. -/
theorem Runs.nested (run : c.Runs m₀ trace seen m) (begins : c.Begins s m₀) (sound : m₀.Sound past)
    (free : m₀.world.executingAt s = false) (ended : c.Ends m (.reply reply)) :
    ∃ k, returnedIn (·.stream = s) trace = List.replicate k 0 ++ [reply.toCount] := by
  obtain ⟨firsts, rfl, emptied⟩ := run.emptied begins sound free ended
  obtain ⟨before, x, rfl, last⟩ := run.returns begins sound ended
  have balance := run.recounts.drains sound.orderly (·.stream = s)
  have counted := run.recounts.completedAt (begins.known sound)
  rw [emptied.completed] at counted
  rw [run.underWay begins ended] at balance
  have split : returnedIn (·.stream = s) (before ++ [x]) =
      returnedIn (·.stream = s) before ++ [firsts.length] := by
    simp only [returnedIn, List.filterMap_append, List.filterMap_cons, last, List.filterMap_nil]
    rfl
  rw [split, List.sum_append, List.sum_singleton] at balance
  have none : (returnedIn (·.stream = s) before).sum = 0 := by omega
  refine ⟨(returnedIn (·.stream = s) before).length, ?_⟩
  rw [split, ← List.eq_replicate_of_mem (List.sum_eq_zero_iff_forall_eq_nat.1 none)]
  rfl

end Within

/-- What a call has come to that has taken down a forest. -/
structure Harvest (c : Call) (s : Nat) (forest : List Work) (m₀ : Machine) (y : Journey) : Prop where
  returned : c.Ends y.machine (.reply (.count (Work.nodes forest).length))
  /-- All messages have run, level by level, and the queue is empty. -/
  emptied : Emptied s ((Work.breadthFirst forest).map (·.message)) m₀ y.trace y.seen y.machine
  /-- The other calls for the stream have returned 0. -/
  nested : ∃ k, returnedIn (·.stream = s) y.trace =
    List.replicate k 0 ++ [(Work.nodes forest).length]

theorem Grows.harvest {forest : List Work} (h : c.Grows s forest m₀) (begins : c.Begins s m₀)
    (sound : m₀.Sound past) (free : m₀.world.executingAt s = false) :
    Inevitable c.Next (c.Harvest s forest m₀) { machine := m₀ } := by
  have fells : Inevitable c.Next (fun y =>
      c.Ends y.machine (.reply (.count (Work.breadthFirst forest).length)) ∧
        startedOn s y.seen = (Work.breadthFirst forest).map (·.message)) { machine := m₀ } := by
    refine begins.takes sound free fun x place => ?_
    have order : Work.breadthFirst forest = [] ++ Work.inTurn forest := by
      rw [Work.inTurn_eq_breadthFirst, List.nil_append]
    exact h.fells begins sound order (by simp [h.roots]) place
  rw [(Work.breadthFirst_perm forest).length_eq] at fells
  refine fells.bind fun y path ⟨ended, started⟩ => .now ?_
  have run : c.Runs m₀ y.trace y.seen y.machine := Reached.runs path
  obtain ⟨firsts, -, emptied⟩ := run.emptied begins sound free ended
  obtain rfl : firsts = _ := emptied.started.symm.trans started
  exact ⟨ended, emptied, run.nested begins sound free ended⟩

end Call

end StreamMachine
