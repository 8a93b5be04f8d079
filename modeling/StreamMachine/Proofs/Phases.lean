import StreamMachine.Proofs.Await

/-! The phases of each message. A stream goes through the phases of one instruction at a time, so
what it shows of phases falls into the stories of its messages, one behind the other. Each story is
the beginning of one course, infer and then compute, that a panic ends. -/
namespace StreamMachine

/-- What a run shows of a phase. -/
inductive Mark where
  | began (phase : Phase) (status : Status)
  | returned (phase : Phase)
  | aborted (phase : Phase)
  deriving DecidableEq, Repr

/-- The mark of a phase on a stream. -/
def Occurrence.mark? (s : Nat) : Occurrence → Option Mark
  | .began i p q => if i = s then some (.began p q) else none
  | .returned i p => if i = s then some (.returned p) else none
  | .aborted i p => if i = s then some (.aborted p) else none
  | _ => none

/-- What a stream shows of phases. -/
def marks (s : Nat) (seen : List Occurrence) : List Mark := seen.filterMap (·.mark? s)

/-- A message that has been started, with what has been shown of its phases. -/
structure Story where
  message : Message
  marks : List Mark := []

def Story.add (x : Story) (new : List Mark) : Story := { x with marks := x.marks ++ new }

/-- Adds to the stories of a stream, the latest first. -/
def Occurrence.tell (s : Nat) (stories : List Story) (o : Occurrence) : List Story :=
  match o.startedOn? s with
  | some message => ⟨message, []⟩ :: stories
  | none => stories.modifyHead (·.add (o.mark? s).toList)

/-- The stories of the messages that a stream has started, the latest first. -/
def stories (s : Nat) (seen : List Occurrence) : List Story := seen.foldl (Occurrence.tell s) []

/-- What has been shown of the phases of the message that a stream has accepted at a position. -/
def phaseTrace (s k : Nat) (seen : List Occurrence) : List Mark :=
  ((stories s seen).reverse[k]?).elim [] (·.marks)

/-- How far the phases of a message may have come. -/
inductive Course : List Mark → Prop
  | waiting : Course []
  | inferring : Course [.began .infer .created]
  | inferAborted : Course [.began .infer .created, .aborted .infer]
  | computing : Course [.began .infer .created, .returned .infer, .began .compute .inferred]
  | computeAborted : Course [.began .infer .created, .returned .infer, .began .compute .inferred,
      .aborted .compute]
  | computed : Course [.began .infer .created, .returned .infer, .began .compute .inferred,
      .returned .compute]

/-- The marks of the phases that have returned by the time of a status. -/
def Status.sofar : Status → List Mark
  | .created => []
  | .inferred => [.began .infer .created, .returned .infer]
  | .computed => [.began .infer .created, .returned .infer, .began .compute .inferred,
      .returned .compute]

/-- A phase is invoked. -/
def Mark.begins : Mark → Bool
  | .began .. => true
  | _ => false

theorem Phase.sofar_after (p : Phase) :
    p.after.sofar = p.before.sofar ++ [.began p p.before, .returned p] := by
  cases p <;> rfl

variable {s : Nat}

@[simp] theorem marks_append (s : Nat) (xs ys : List Occurrence) :
    marks s (xs ++ ys) = marks s xs ++ marks s ys := List.filterMap_append

theorem stories_append_singleton (s : Nat) (seen : List Occurrence) (o : Occurrence) :
    stories s (seen ++ [o]) = o.tell s (stories s seen) := by
  simp [stories]

theorem Story.modifyHead_add_nil (xs : List Story) : xs.modifyHead (·.add []) = xs := by
  cases xs <;> simp [Story.add]

/-- What starts no message adds its mark, if any, to the latest story. -/
theorem stories_append_of_quiet {o : Occurrence} (quiet : o.startedOn? s = none)
    (seen : List Occurrence) :
    stories s (seen ++ [o]) = (stories s seen).modifyHead (·.add (marks s [o])) := by
  have own : marks s [o] = (o.mark? s).toList := by cases h : o.mark? s <;> simp [marks, h]
  rw [stories_append_singleton, Occurrence.tell, quiet, own]

theorem Occurrence.mark?_apart {o : Occurrence} (h : ¬ o.Lives s) : o.mark? s = none := by
  cases o <;> first | rfl | exact if_neg h

theorem marks_apart {o : Occurrence} (h : ¬ o.Lives s) : marks s [o] = [] := by
  simp [marks, Occurrence.mark?_apart h]

theorem stories_append_of_apart {o : Occurrence} (h : ¬ o.Lives s) (seen : List Occurrence) :
    stories s (seen ++ [o]) = stories s seen := by
  have quiet : o.startedOn? s = none := by
    cases o <;> first | rfl | exact if_neg h
  rw [stories_append_of_quiet quiet, marks_apart h, Story.modifyHead_add_nil]

/-- A stream has one story for each message that it has started. -/
theorem messages_stories (s : Nat) (seen : List Occurrence) :
    (stories s seen).map (·.message) = (startedOn s seen).reverse := by
  induction seen using List.reverseRecOn with
  | nil => rfl
  | append_singleton seen o ih =>
    rw [stories_append_singleton, startedOn_append, List.reverse_append, ← ih, Occurrence.tell]
    cases start : o.startedOn? s with
    | some message => simp [startedOn, start]
    | none => cases stories s seen <;> simp [startedOn, start, Story.add]

/-- What the story of an instruction has come to at each stage; at none, it is over. -/
def Stage.Shows : Stage → List Mark → Prop
  | .idle, marks => marks = Status.computed.sofar ∨
      ∃ p : Phase, marks = p.before.sofar ++ [.began p p.before, .aborted p]
  | .waits q, marks => marks = q.sofar
  | .under p, marks => marks = p.before.sofar ++ [.began p p.before]
  | .broken, marks => ∃ p : Phase, marks = p.before.sofar ++ [.began p p.before, .aborted p]

/-- The stories of a stream at each stage: all but the latest are over. -/
inductive Stage.Tells : Stage → List Story → Prop
  | none : Tells .idle []
  | latest {stage : Stage} {x : Story} {past : List Story} (shows : stage.Shows x.marks)
      (ended : ∀ y ∈ past, Stage.idle.Shows y.marks) : Tells stage (x :: past)

namespace Stage.Tells

variable {stage stage' : Stage} {xs : List Story}

/-- What is shown of a phase belongs to the latest story. -/
theorem add (h : stage.Tells xs) (busy : stage ≠ .idle) (new : List Mark)
    (next : ∀ marks, stage.Shows marks → stage'.Shows (marks ++ new)) :
    stage'.Tells (xs.modifyHead (·.add new)) ∧
      xs.reverse.flatMap (·.marks) ++ new =
        (xs.modifyHead (·.add new)).reverse.flatMap (·.marks) := by
  cases h with
  | none => exact (busy rfl).elim
  | latest shows ended => exact ⟨.latest (next _ shows) ended, by simp [Story.add]⟩

end Stage.Tells

/-- The stories of a stream tell how far it has come, and all that it shows of phases. -/
theorem Lived.tells {seen : List Occurrence} {stage : Stage} (run : Lived s seen stage) :
    stage.Tells (stories s seen) ∧
      marks s seen = (stories s seen).reverse.flatMap (·.marks) := by
  induction run with
  | nil => exact ⟨.none, rfl⟩
  | @apart seen stage o run apart ih =>
    rw [stories_append_of_apart apart, marks_append, marks_apart apart, List.append_nil]
    exact ih
  | @started seen run m ih =>
    obtain ⟨tells, whole⟩ := ih
    have fresh : stories s (seen ++ [.started s m]) = ⟨m, []⟩ :: stories s seen := by
      simp [stories_append_singleton, Occurrence.tell, Occurrence.startedOn?]
    rw [fresh, marks_append, whole]
    refine ⟨.latest rfl ?_, by simp [marks, Occurrence.mark?]⟩
    generalize stories s seen = xs at tells
    cases tells with
    | none => simp
    | latest shows ended => exact List.forall_mem_cons.2 ⟨shows, ended⟩
  | @began seen p run ih =>
    have mark : marks s [.began s p p.before] = [.began p p.before] := by
      simp [marks, Occurrence.mark?]
    rw [stories_append_of_quiet rfl, marks_append, ih.2, mark]
    refine ih.1.add (by simp) _ ?_
    rintro _ rfl
    rfl
  | @returned seen p run ih =>
    have mark : marks s [.returned s p] = [.returned p] := by simp [marks, Occurrence.mark?]
    rw [stories_append_of_quiet rfl, marks_append, ih.2, mark]
    refine ih.1.add (by simp) _ ?_
    rintro _ rfl
    rw [List.append_assoc]
    exact p.sofar_after.symm
  | @aborted seen p run ih =>
    have mark : marks s [.aborted s p] = [.aborted p] := by simp [marks, Occurrence.mark?]
    rw [stories_append_of_quiet rfl, marks_append, ih.2, mark]
    refine ih.1.add (by simp) _ ?_
    rintro _ rfl
    exact ⟨p, List.append_assoc ..⟩
  | @completed seen run ih =>
    rw [stories_append_of_quiet rfl, marks_append, ih.2]
    refine ih.1.add (by simp) _ ?_
    rintro _ rfl
    exact .inl rfl
  | @abandoned seen run e ih =>
    rw [stories_append_of_quiet rfl, marks_append, ih.2]
    refine ih.1.add (by simp) _ ?_
    rintro _ ⟨p, rfl⟩
    exact .inr ⟨p, List.append_nil _⟩

/-- A story that is over is at the end of its course. -/
theorem Stage.idle.course_of_shows {xs : List Mark} (h : Stage.idle.Shows xs) : Course xs := by
  obtain rfl | ⟨p, rfl⟩ := h
  · exact .computed
  · cases p
    · exact .inferAborted
    · exact .computeAborted

/-- The latest story is on its course, unless the instruction is between its phases. -/
theorem Stage.course_of_shows {stage : Stage} {xs : List Mark} (h : stage.Shows xs) :
    Course xs ∨ stage = .waits .inferred ∧ xs = Status.inferred.sofar := by
  cases stage with
  | idle => exact .inl (Stage.idle.course_of_shows h)
  | broken => exact .inl (Stage.idle.course_of_shows (.inr h))
  | waits q =>
    obtain rfl : xs = q.sofar := h
    cases q with
    | created => exact .inl .waiting
    | inferred => exact .inr ⟨rfl, rfl⟩
    | computed => exact .inl .computed
  | under p =>
    obtain rfl : xs = p.before.sofar ++ [Mark.began p p.before] := h
    cases p with
    | infer => exact .inl .inferring
    | compute => exact .inl .computing

/-- The messages of a stream are on their courses, but for one whose instruction stands between its
phases; that is the latest. -/
theorem Lived.course {seen : List Occurrence} {stage : Stage} (run : Lived s seen stage) (k : Nat) :
    Course (phaseTrace s k seen) ∨ phaseTrace s k seen = Status.inferred.sofar ∧
      stage = .waits .inferred ∧ (stories s seen).reverse[k]? = (stories s seen).head? := by
  cases told : (stories s seen).reverse[k]? with
  | none => exact .inl (by simpa [phaseTrace, told] using Course.waiting)
  | some story =>
    have trace : phaseTrace s k seen = story.marks := by simp [phaseTrace, told]
    have mem : story ∈ stories s seen := List.mem_reverse.1 (List.mem_of_getElem? told)
    have tells := run.tells.1
    rw [trace]
    generalize stories s seen = xs at mem tells
    cases tells with
    | none => simp at mem
    | @latest stage y past shows ended =>
      obtain rfl | earlier := List.mem_cons.1 mem
      · exact (Stage.course_of_shows shows).imp_right fun ⟨between, come⟩ => ⟨come, between, rfl⟩
      · exact .inl (Stage.idle.course_of_shows (ended _ earlier))

/-- Each phase is invoked once at most, in the status that it asks for. -/
theorem Course.filter_begins {xs : List Mark} (h : Course xs ∨ xs = Status.inferred.sofar) :
    xs.filter Mark.begins <+: [.began .infer .created, .began .compute .inferred] := by
  obtain h | rfl := h
  · cases h <;> decide
  · decide

namespace Turn

variable {w : World} {t : Thread} {r : Step}

/-- A step shows the start of an instruction alone. -/
theorem started (h : Turn w t r) (s : Nat) :
    startedOn s r.seen = [] ∨ ∃ message, r.seen = [.started s message] := by
  cases h with
  | calm _ _ _ _ _ _ _ _ _ _ silent | proceed _ _ _ _ _ _ _ _ _ _ _ silent
  | finish _ _ _ _ _ _ _ _ _ silent => exact .inl (startedOn_calm silent s)
  | start i e p outer message =>
    by_cases own : i = s
    · exact .inr ⟨message, by rw [own]⟩
    · exact .inl (by simp [startedOn, Occurrence.startedOn?, own])
  | _ => exact .inl (by simp [startedOn, Occurrence.startedOn?, Thread.notice])

/-- An instruction stays what it is, or has just been started. -/
theorem run_mem (h : Turn w t r) {x : Instruction} {phases : List Phase}
    (mem : .run x phases ∈ r.thread.frames) :
    (∃ y phases', .run y phases' ∈ t.frames ∧ y.stream = x.stream ∧ y.message = x.message) ∨
      r.seen = [.started x.stream x.message] := by
  have calm {added : List Frame} (above : ∀ f ∈ added, f.Calm) : .run x phases ∉ added :=
    fun mem => above _ mem
  have kept {frame : Frame} {outer : List Frame} (frames : t.frames = frame :: outer)
      (mem : .run x phases ∈ outer) :
      ∃ y phases', .run y phases' ∈ t.frames ∧ y.stream = x.stream ∧ y.message = x.message :=
    ⟨x, phases, frames ▸ List.mem_cons_of_mem _ mem, rfl, rfl⟩
  cases h with
  | calm frame outer added frames _ _ stack above =>
    rw [stack] at mem
    exact .inl (kept frames ((List.mem_append.1 mem).resolve_left (calm above)))
  | dismiss _ _ outer frames stack | finish _ _ _ outer _ frames stack =>
    exact .inl (kept frames (stack ▸ mem))
  | drain frame outer added s frames _ above =>
    obtain mem := (List.mem_cons.1 mem).resolve_left (by simp)
    exact .inl (kept frames ((List.mem_append.1 mem).resolve_left (calm above)))
  | proceed y y' phases₀ phases₁ outer added seen frames stream message above =>
    obtain mem := (List.mem_append.1 mem).resolve_left (calm above)
    obtain same | mem := List.mem_cons.1 mem
    · obtain ⟨rfl, -⟩ := Frame.run.inj same
      exact .inl ⟨y, phases₀, frames ▸ List.mem_cons_self, stream.symm, message.symm⟩
    · exact .inl (kept frames mem)
  | start s e p outer message queue frames =>
    obtain same | mem := List.mem_cons.1 mem
    · obtain ⟨rfl, -⟩ := Frame.run.inj same
      exact .inr rfl
    · exact .inl (kept frames ((List.mem_cons.1 mem).resolve_left (by simp)))
  | push _ _ _ _ _ _ frames | busy _ _ _ frames | rest _ _ _ frames
  | abandon _ _ _ _ _ frames => exact .inl (kept frames mem)
  | enlist _ _ _ frames =>
    exact .inl (kept frames (by simpa [Thread.goto] using mem))
  | seize _ _ _ frames | yield _ _ _ frames | again _ _ _ frames | complete _ _ _ _ _ frames
  | dry _ _ _ _ frames =>
    exact .inl (kept frames ((List.mem_cons.1 mem).resolve_left (by simp)))

theorem runs_of_start (h : Turn w t r) {message : Message} (start : r.seen = [.started s message]) :
    r.thread.frames.countP (Frame.runs s) = t.frames.countP (Frame.runs s) + 1 := by
  have loud {seen : List Occurrence} (silent : ∀ o ∈ seen, o.Calm) :
      seen ≠ [.started s message] := by
    rintro rfl
    exact silent _ (List.mem_singleton_self _)
  cases h with
  | calm _ _ _ _ _ _ _ _ _ _ silent | proceed _ _ _ _ _ _ _ _ _ _ _ silent
  | finish _ _ _ _ _ _ _ _ _ silent => exact (loud silent start).elim
  | start i e p outer message' queue frames =>
    obtain ⟨⟨rfl, -⟩, -⟩ : (i = s ∧ message' = message) ∧ True := by simpa using start
    simp [frames, Thread.goto, Frame.runs]
  | _ => simp at start

end Turn

namespace Machine

variable {m m' m₀ : Machine} {seen new : List Occurrence} {i : Nat} {t : Thread}

/-- An instruction in flight is that of the message that its stream has started last. -/
def Current (seen : List Occurrence) (m : Machine) : Prop :=
  ∀ t ∈ m.threads, ∀ x phases, .run x phases ∈ t.frames →
    (startedOn x.stream seen).getLast? = some x.message

/-- When an instruction starts, none is in flight on its stream. -/
theorem Guarded.inFlight_of_start (h : m.Guarded seen) (found : m.threads[i]? = some t) {r : Step}
    (turn : Turn m.world t r) {message : Message} (start : r.seen = [.started s message]) :
    m.inFlight s = 0 := by
  have one := (h.stepped found turn).disciplined.one s
  have set := countFrames_set found (Frame.runs s) r.thread
  rw [turn.runs_of_start start] at set
  rw [inFlight, Machine.stepped, countFrames_append,
    countFrames_workers (by simp [Frame.runs]) turn.spawned] at one
  rw [inFlight]
  omega

theorem Current.stepped (h : m.Current seen) (guarded : m.Guarded seen) {r : Step}
    (found : m.threads[i]? = some t) (turn : Turn m.world t r) :
    (m.stepped i r).Current (seen ++ r.seen) := by
  intro y hy x phases mem
  have before : (∃ z ∈ m.threads, ∃ x' phases', .run x' phases' ∈ z.frames ∧
      x'.stream = x.stream ∧ x'.message = x.message) ∨ r.seen = [.started x.stream x.message] := by
    obtain hy | hy := List.mem_append.1 hy
    · obtain hy | rfl := List.mem_or_eq_of_mem_set hy
      · exact .inl ⟨y, hy, x, phases, mem, rfl, rfl⟩
      · refine (turn.run_mem mem).imp_left fun ⟨x', phases', mem', same⟩ => ?_
        exact ⟨t, List.mem_of_getElem? found, x', phases', mem', same⟩
    · obtain ⟨s, rfl⟩ := turn.spawned y hy
      simp [Thread.worker] at mem
  rw [startedOn_append]
  obtain ⟨z, hz, x', phases', mem', stream, message⟩ | start := before
  · obtain quiet | ⟨other, start⟩ := turn.started x.stream
    · rw [quiet, List.append_nil, ← stream, ← message]
      exact h z hz x' phases' mem'
    · -- Nothing starts on the stream of an instruction in flight.
      have none := guarded.inFlight_of_start found turn start
      rw [inFlight, countFrames, List.countP_eq_zero] at none
      have flies := none _ (List.mem_flatMap_of_mem hz mem')
      simp [Frame.runs, stream] at flies
  · simp [start, startedOn, Occurrence.startedOn?]

theorem Moves.current (move : m.Moves new m') (guarded : m.Guarded seen) (h : m.Current seen) :
    m'.Current (seen ++ new) := by
  cases move with
  | step i step =>
    obtain ⟨t, r, found, turn, rfl, rfl⟩ := turn_of_stepAt? step
    exact h.stepped guarded found turn
  | expire i step =>
    obtain ⟨t, r, found, turn, rfl, rfl⟩ := turn_of_expireAt? step
    exact h.stepped guarded found turn
  | call command =>
    intro y hy x phases mem
    obtain hy | hy := List.mem_append.1 hy
    · rw [List.append_nil]
      exact h y hy x phases mem
    · rw [List.mem_singleton.1 hy] at mem
      simp [Thread.ofCommand] at mem
  | offer s message =>
    intro y hy x phases mem
    simpa [startedOn, Occurrence.startedOn?] using h y hy x phases mem
  | revise i t t' found revised =>
    rw [List.append_nil]
    intro y hy x phases mem
    obtain hy | rfl := List.mem_or_eq_of_mem_set hy
    · exact h y hy x phases mem
    · obtain ⟨f, g, outer, -, calm, frames, frames', -⟩ := revised.calm
      rw [frames'] at mem
      refine h t (List.mem_of_getElem? found) x phases ?_
      obtain rfl | mem := List.mem_cons.1 mem
      · exact calm.elim
      · exact frames ▸ List.mem_cons_of_mem f mem

theorem Reaches.current (run : m₀.Reaches seen m) (guarded : m₀.Guarded []) (h : m₀.Current []) :
    m.Current seen := by
  induction run with
  | refl => exact h
  | move earlier last ih => exact last.current (earlier.guarded guarded) ih

end Machine

/-- How a step shows a mark of an instruction: it has the behavior go into a phase, in the status
that this asks for, or ends the phase. -/
inductive Thread.Invokes (t : Thread) (r : Step) (x : Instruction) : Mark → Prop
  | began (p : Phase) (phases : List Phase) (outer : List Frame) (ready : x.status = p.before)
      (frames : t.frames = .run x (p :: phases) :: outer) (run : t.control = .run)
      (next : r.thread = t.goto (.phase x p (x.behavior.moves p) :: t.frames)) :
      Invokes t r x (.began p p.before)
  | returned (p : Phase) (phases : List Phase) (outer : List Frame) (ready : x.status = p.before)
      (frames : t.frames = .phase x p [] :: .run x (p :: phases) :: outer)
      (next : r.thread = t.give (.run x (p :: phases) :: outer) .ok) : Invokes t r x (.returned p)
  | aborted (p : Phase) (moves : List Move) (phases : List Phase) (outer : List Frame)
      (panic : Panic) (ready : x.status = p.before)
      (frames : t.frames = .phase x p moves :: .run x (p :: phases) :: outer)
      (next : r.thread = t.fail (.run x (p :: phases) :: outer) panic) : Invokes t r x (.aborted p)

theorem Stride.invokes {w : World} {t : Thread} {r : Step} (h : Stride w t r)
    (nested : Nested w t.frames) {mark : Mark} (shown : mark ∈ marks s r.seen) : ∃ x o phases,
    r.seen = [o] ∧ o.startedOn? s = none ∧ marks s [o] = [mark] ∧ x.stream = s ∧
      .run x phases ∈ t.frames ∧ t.Invokes r x mark := by
  have quiet {seen : List Occurrence} (silent : ∀ o ∈ seen, o.Silent) : mark ∉ marks s seen := by
    intro mem
    obtain ⟨o, ho, some⟩ := List.mem_filterMap.1 mem
    rw [Occurrence.mark?_apart (Lived.silent_apart (silent o ho))] at some
    cases some
  have one {o : Occurrence} {i : Nat} {new : Mark}
      (same : o.mark? s = if i = s then some new else none) (mem : mark ∈ marks s [o]) :
      i = s ∧ new = mark ∧ marks s [o] = [mark] := by
    by_cases own : i = s
    · have whole : marks s [o] = [new] := by simp [marks, same, own]
      obtain rfl : mark = new := by simpa [whole] using mem
      exact ⟨own, rfl, whole⟩
    · simp [marks, same, own] at mem
  cases h with
  | plain _ _ _ _ _ _ _ _ _ _ silent | move _ _ _ _ _ _ _ _ _ _ _ _ silent =>
    exact (quiet silent shown).elim
  | refuse i p phases outer v frames run early =>
    exact (quiet (raise_seen_silent t outer _) shown).elim
  | begin i p phases outer frames run ready =>
    obtain ⟨own, rfl, whole⟩ := one rfl shown
    refine ⟨i, _, p :: phases, rfl, rfl, whole, own, frames ▸ List.mem_cons_self, ?_⟩
    rw [ready]
    exact .began p phases outer ready frames run (by rw [frames])
  | returned i p outer frames =>
    obtain ⟨own, rfl, whole⟩ := one rfl shown
    rw [frames] at nested
    obtain ⟨⟨phases, rest, rfl⟩, ⟨due, -⟩, -⟩ := nested
    refine ⟨i, _, p :: phases, rfl, rfl, whole, own, by simp [frames], ?_⟩
    exact .returned p phases rest (Status.eq_of_due due) frames rfl
  | aborted i p moves outer panic frames =>
    obtain ⟨own, rfl, whole⟩ := one rfl shown
    rw [frames] at nested
    obtain ⟨⟨phases, rest, rfl⟩, ⟨due, -⟩, -⟩ := nested
    refine ⟨i, _, p :: phases, rfl, rfl, whole, own, by simp [frames], ?_⟩
    exact .aborted p moves phases rest panic (Status.eq_of_due due) frames rfl
  | drain i p e outer frames turn =>
    cases turn with
    | calm _ _ _ frames' calm | push _ _ _ _ _ _ frames' calm | drain _ _ _ _ frames' calm
    | enlist _ _ _ frames' calm =>
      rw [frames] at frames'
      cases frames'
      exact calm.elim
    | dismiss _ _ _ frames' | proceed _ _ _ _ _ _ _ frames' | finish _ _ _ _ _ frames' =>
      rw [frames] at frames'
      cases frames'
    | _ => simp [marks, Occurrence.mark?] at shown
  | _ => simp [marks] at shown

namespace Thread

variable {m : Machine} {t : Thread} {i : Instruction} {p : Phase} {phases : List Phase}
  {outer : List Frame}

/-- An instruction about to go through its phases does so at once. -/
theorem goes_iff_of_run (frames : t.frames = .run i phases :: outer) (run : t.control = .run)
    {r : Step} : t.Goes m r ↔ r = t.stepRun i phases outer := by
  constructor
  · intro goes
    simpa [stepFrame?, eq_comm] using goes.of_frame frames run (by simp)
  · rintro rfl
    exact .step (by simp [step?, frames, run, stepFrame?])

theorem stepRun_of_ready (t : Thread) (phases : List Phase) (outer : List Frame)
    (ready : i.status = p.before) : t.stepRun i (p :: phases) outer =
    ⟨.nothing, t.goto (.phase i p (i.behavior.moves p) :: .run i (p :: phases) :: outer), [],
      [.began i.stream p p.before]⟩ := by
  simp [stepRun, Instruction.checkStatus, ready]

theorem stepRun_of_early (t : Thread) (phases : List Phase) (outer : List Frame)
    (early : i.status ≠ p.before) : t.stepRun i (p :: phases) outer =
    ⟨.nothing, t.fail outer (.violation (.wrongStatus i.name p i.status)), [],
      [t.notice (.violated (.wrongStatus i.name p i.status))]⟩ := by
  simp [stepRun, Instruction.checkStatus, early, raise]

/-- An instruction between its phases. -/
inductive Crosses (t : Thread) (x : Instruction) : Prop
  | advancing (outer : List Frame) (reply : Reply)
      (frames : t.frames = .run x [.infer, .compute] :: outer) (control : t.control = .reply reply)
  | ready (outer : List Frame) (status : x.status = .inferred)
      (frames : t.frames = .run x [.compute] :: outer) (run : t.control = .run)

theorem Crosses.exists_mem {x : Instruction} (h : t.Crosses x) :
    ∃ phases, .run x phases ∈ t.frames := by
  cases h with
  | advancing _ _ frames | ready _ _ frames => exact ⟨_, frames ▸ List.mem_cons_self⟩

/-- Its thread goes on to the second phase, at once and whatever happens beside it. -/
theorem Crosses.goes {x : Instruction} (h : t.Crosses x) :
    ∃ r, t.Goes m r ∧ (∀ r', t.Goes m r' → r' = r) ∧ r.deed = .nothing ∧
      (r.seen = [] ∧ r.thread.Crosses (x.advance .infer) ∨
        r.seen = [.began x.stream .compute .inferred] ∧
          t.Invokes r x (.began .compute .inferred)) := by
  cases h with
  | advancing outer reply frames control =>
    refine ⟨⟨.nothing, t.goto (.run (x.advance .infer) [.compute] :: outer), [], []⟩,
      .step (by simp [step?, frames, control, stepReply]), fun r goes => ?_, rfl,
      .inl ⟨rfl, .ready outer rfl rfl rfl⟩⟩
    exact goes.of_reply frames control
  | ready outer status frames run =>
    have first := stepRun_of_ready t [] outer (p := .compute) status
    refine ⟨_, (goes_iff_of_run frames run).2 rfl, fun r => (goes_iff_of_run frames run).1, ?_⟩
    rw [first]
    exact ⟨rfl, .inr ⟨rfl, .began .compute [] outer status frames run (by rw [frames])⟩⟩

end Thread

namespace Machine

variable {m m₀ : Machine} {seen : List Occurrence}

/-- The instruction of a message of a stream stands between its phases. -/
def Crossing (m : Machine) (s : Nat) (message : Message) : Prop :=
  ∃ (place : Nat) (t : Thread) (x : Instruction), m.threads[place]? = some t ∧ x.stream = s ∧
    x.message = message ∧ t.Crosses x

theorem Orderly.exists_crosses (h : m.Orderly) (reached : m.stages s = [.waits .inferred]) :
    ∃ (place : Nat) (t : Thread) (x : Instruction), m.threads[place]? = some t ∧ x.stream = s ∧
      t.Crosses x := by
  have mem : .waits .inferred ∈ m.stages s := by simp [reached]
  obtain ⟨t, ht, mem⟩ := List.mem_flatMap.1 mem
  obtain ⟨place, found⟩ := List.getElem?_of_mem ht
  have nested := h.nested t ht
  obtain top | below := List.mem_append.1 mem
  · cases frames : t.frames with
    | nil => simp [frames] at top
    | cons f outer =>
      rw [frames] at nested
      replace top : f.reached? s t.control = some (.waits .inferred) := by simpa [frames] using top
      cases f with
      | run x phases =>
        have own : x.stream = s := by
          by_contra other
          simp [Frame.reached?, other] at top
        obtain ⟨⟨due, -⟩, -⟩ := nested
        refine ⟨place, t, x, found, own, ?_⟩
        rw [due] at frames top
        cases control : t.control with
        | unwind panic => simp [Frame.reached?, own, control] at top
        | run =>
          have status : x.status = .inferred := by
            cases q : x.status <;> simp [Frame.reached?, own, control, q] at top ⊢
          exact .ready outer status (by rw [frames, status]; rfl) control
        | reply reply =>
          have status : x.status = .created := by
            cases q : x.status <;>
              simp [Frame.reached?, own, control, q, Status.due, Phase.after] at top ⊢
          exact .advancing outer reply (by rw [frames, status]; rfl) control
      | drain i p e =>
        cases control : t.control <;> simp [Frame.reached?, control] at top
      | _ => cases top
  · obtain ⟨f, -, at_stage⟩ := List.mem_filterMap.1 below
    cases f with
    | run x phases => cases phases <;> simp [Frame.stage?] at at_stage
    | _ => cases at_stage

/-- What holds of the phases of all messages at every point of a run. -/
structure Phased (seen : List Occurrence) (m : Machine) : Prop where
  /-- The stories of a stream are those of the messages that it has accepted first, in order. -/
  messages : ∀ s, (stories s seen).reverse.map (·.message) <+: acceptedOn s seen
  /-- One behind the other, they are all that it shows of phases. -/
  apart : ∀ s, marks s seen = (stories s seen).reverse.flatMap (·.marks)
  /-- Each message is on its course, but for one whose instruction stands between its phases. -/
  course : ∀ s k message, (acceptedOn s seen)[k]? = some message → Course (phaseTrace s k seen) ∨
    phaseTrace s k seen = Status.inferred.sofar ∧ m.Crossing s message
  /-- That goes on to the second phase at once, whatever happens beside it. -/
  crosses : ∀ t ∈ m.threads, ∀ x, t.Crosses x → ∃ r, t.Goes m r ∧ (∀ r', t.Goes m r' → r' = r) ∧
    r.deed = .nothing ∧ (r.seen = [] ∧ r.thread.Crosses (x.advance .infer) ∨
      r.seen = [.began x.stream .compute .inferred] ∧ t.Invokes r x (.began .compute .inferred))
  /-- So each is on its course once no thread can go on. -/
  whole : (∀ (place : Nat) (t : Thread) (r : Step), m.threads[place]? = some t → ¬ t.Goes m r) →
    ∀ s k message, (acceptedOn s seen)[k]? = some message → Course (phaseTrace s k seen)
  /-- The phases of each are invoked once at most, in the status that they ask for. -/
  once : ∀ s k, (phaseTrace s k seen).filter Mark.begins <+:
    [.began .infer .created, .began .compute .inferred]
  one : ∀ s, m.inFlight s ≤ 1
  /-- An instruction in flight is that of the latest story of its stream. -/
  current : ∀ t ∈ m.threads, ∀ x phases, .run x phases ∈ t.frames →
    ∃ story past, stories x.stream seen = story :: past ∧ story.message = x.message
  /-- What a step shows of a phase comes from that instruction and goes into that story. -/
  invokes : ∀ (place : Nat) (t : Thread) (r : Step), m.threads[place]? = some t → t.Goes m r →
    ∀ s, ∀ mark ∈ marks s r.seen, ∃ x story past, x.stream = s ∧ t.Invokes r x mark ∧
      story.message = x.message ∧ stories s seen = story :: past ∧
      stories s (seen ++ r.seen) = story.add [mark] :: past

theorem exists_latest {s : Nat} {message : Message}
    (last : (startedOn s seen).getLast? = some message) :
    ∃ story past, stories s seen = story :: past ∧ story.message = message := by
  rw [← List.head?_reverse, ← messages_stories, List.head?_map, Option.map_eq_some_iff] at last
  obtain ⟨story, head, same⟩ := last
  obtain ⟨past, told⟩ := List.head?_eq_some_iff.1 head
  exact ⟨story, past, told, same⟩

section

variable {w : World} (run : Reaches ⟨w, []⟩ seen m)
include run

/-- Of the messages that a stream has accepted, those that it has started are the first. -/
theorem Reaches.messages (empty : ∀ s, w.queueAt s = []) (s : Nat) :
    (stories s seen).reverse.map (·.message) <+: acceptedOn s seen := by
  have ledger := run.ledger s
  rw [empty, List.nil_append] at ledger
  rw [List.map_reverse, messages_stories, List.reverse_reverse, ← ledger]
  exact List.prefix_append _ _

theorem Reaches.latest (guarded : Guarded [] ⟨w, []⟩) :
    ∀ t ∈ m.threads, ∀ x phases, .run x phases ∈ t.frames →
      ∃ story past, stories x.stream seen = story :: past ∧ story.message = x.message :=
  fun t ht x phases mem => exists_latest (run.current guarded (by simp [Current]) t ht x phases mem)

theorem Reaches.course (guarded : Guarded [] ⟨w, []⟩) (orderly : Orderly ⟨w, []⟩)
    (empty : ∀ s, w.queueAt s = []) {s k : Nat} {message : Message}
    (accepted : (acceptedOn s seen)[k]? = some message) : Course (phaseTrace s k seen) ∨
      phaseTrace s k seen = Status.inferred.sofar ∧ m.Crossing s message := by
  obtain ⟨stage, lived, reached⟩ := run.staged guarded orderly (.init w) s
  refine (lived.course k).imp_right fun ⟨come, between, newest⟩ => ⟨come, ?_⟩
  obtain ⟨place, t, x, found, own, crosses⟩ :=
    (run.orderly orderly).exists_crosses (reached.trans (by rw [between]; rfl))
  obtain ⟨phases, mem⟩ := crosses.exists_mem
  obtain ⟨story, past, told, same⟩ :=
    run.latest guarded t (List.mem_of_getElem? found) x phases mem
  refine ⟨place, t, x, found, own, ?_, crosses⟩
  -- The message of the latest story is the one accepted at the same position.
  obtain ⟨later, whole⟩ := run.messages empty s
  rw [own] at told
  rw [told, List.head?_cons, ← told] at newest
  have started : ((stories s seen).reverse.map (·.message))[k]? = some story.message := by
    rw [List.getElem?_map, newest]
    rfl
  have inside := (List.getElem?_eq_some_iff.1 started).1
  rw [← whole, List.getElem?_append_left inside, started] at accepted
  rw [← same, Option.some.inj accepted]

theorem Reaches.invokes (guarded : Guarded [] ⟨w, []⟩) (orderly : Orderly ⟨w, []⟩)
    {place : Nat} {t : Thread} {r : Step} (found : m.threads[place]? = some t) (goes : t.Goes m r)
    {s : Nat} {mark : Mark} (shown : mark ∈ marks s r.seen) : ∃ x story past, x.stream = s ∧
      t.Invokes r x mark ∧ story.message = x.message ∧ stories s seen = story :: past ∧
      stories s (seen ++ r.seen) = story.add [mark] :: past := by
  have nested := (run.orderly orderly).nested t (List.mem_of_getElem? found)
  obtain ⟨x, o, phases, single, quiet, one, own, mem, invokes⟩ :=
    goes.turn_stride.2.invokes nested shown
  obtain ⟨story, past, told, same⟩ :=
    run.latest guarded t (List.mem_of_getElem? found) x phases mem
  rw [own] at told
  refine ⟨x, story, past, own, invokes, same, told, ?_⟩
  rw [single, stories_append_of_quiet quiet, told, one]
  rfl

theorem Reaches.phased (guarded : Guarded [] ⟨w, []⟩) (orderly : Orderly ⟨w, []⟩)
    (empty : ∀ s, w.queueAt s = []) : m.Phased seen where
  messages := run.messages empty
  apart s := by
    obtain ⟨stage, lived, -⟩ := run.staged guarded orderly (.init w) s
    exact lived.tells.2
  course _ _ _ := run.course guarded orderly empty
  crosses _ _ _ between := between.goes
  whole still s k message accepted := by
    refine (run.course guarded orderly empty accepted).resolve_right ?_
    rintro ⟨-, place, t, x, found, -, -, crosses⟩
    obtain ⟨r, goes, -⟩ := crosses.goes (m := m)
    exact still place t r found goes
  once s k := by
    obtain ⟨stage, lived, -⟩ := run.staged guarded orderly (.init w) s
    exact Course.filter_begins ((lived.course k).imp_right And.left)
  one := (run.guarded guarded).disciplined.one
  current := run.latest guarded
  invokes _ _ _ found goes _ _ := run.invokes guarded orderly found goes

end

end Machine

end StreamMachine
