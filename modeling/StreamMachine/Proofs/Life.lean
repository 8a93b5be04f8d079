import StreamMachine.Proofs.Nesting
import StreamMachine.Proofs.Verdict

/-! The life of an instruction, as a run shows it: it starts, its phases begin and return or are cut
short, and it completes or its drain unwinds. A stream leads one such life at a time, and how far it
has come can be read off the stacks. So what a stream has completed are the messages both of whose
phases have returned. -/
namespace StreamMachine

/-- A message that has been started, with its phases that have returned, the latest first. -/
structure Life where
  message : Message
  returned : List Phase := []

/-- Both phases have returned. -/
def Life.fulfilled (l : Life) : Bool := l.returned.contains .infer && l.returned.contains .compute

/-- What an occurrence adds to the lives that a stream has led, the latest first. -/
def Occurrence.note (s : Nat) (lives : List Life) : Occurrence → List Life
  | .started i m => if i = s then ⟨m, []⟩ :: lives else lives
  | .returned i p =>
    if i = s then lives.modifyHead fun l => { l with returned := p :: l.returned } else lives
  | _ => lives

/-- The lives that a stream has led in a run, the latest first. -/
def lives (s : Nat) (seen : List Occurrence) : List Life :=
  seen.foldl (fun lives o => o.note s lives) []

/-- Messages of a stream both of whose phases have returned. -/
def fulfilled (s : Nat) (seen : List Occurrence) : Nat := (lives s seen).countP (·.fulfilled)

/-- How far a stream has come with an instruction. -/
inductive Stage where
  | idle
  | waits (status : Status)
  | under (phase : Phase)
  /-- A phase has panicked, and its drain is about to unwind. -/
  | broken
  deriving DecidableEq

def Stage.toList : Stage → List Stage
  | .idle => []
  | stage => [stage]

/-- Phases that have returned by the time of a status, the latest first. -/
def Status.past : Status → List Phase
  | .created => []
  | .inferred => [.infer]
  | .computed => [.compute, .infer]

/-- Occurrences in the life of an instruction of a stream. -/
def Occurrence.Lives (s : Nat) : Occurrence → Prop
  | .started i _ | .began i .. | .returned i _ | .aborted i _ | .completed i | .abandoned i _ => i = s
  | _ => False

/-- Runs that leave a stream at a stage. -/
inductive Lived (s : Nat) : List Occurrence → Stage → Prop
  | nil : Lived s [] .idle
  | apart {seen : List Occurrence} {stage : Stage} {o : Occurrence} (run : Lived s seen stage)
      (apart : ¬ o.Lives s) : Lived s (seen ++ [o]) stage
  | started {seen : List Occurrence} (run : Lived s seen .idle) (m : Message) :
      Lived s (seen ++ [.started s m]) (.waits .created)
  | began {seen : List Occurrence} {p : Phase} (run : Lived s seen (.waits p.before)) :
      Lived s (seen ++ [.began s p p.before]) (.under p)
  | returned {seen : List Occurrence} {p : Phase} (run : Lived s seen (.under p)) :
      Lived s (seen ++ [.returned s p]) (.waits p.after)
  | aborted {seen : List Occurrence} {p : Phase} (run : Lived s seen (.under p)) :
      Lived s (seen ++ [.aborted s p]) .broken
  | completed {seen : List Occurrence} (run : Lived s seen (.waits .computed)) :
      Lived s (seen ++ [.completed s]) .idle
  | abandoned {seen : List Occurrence} (run : Lived s seen .broken) (e : Nat) :
      Lived s (seen ++ [.abandoned s e]) .idle

variable {s : Nat}

theorem lives_append_singleton (s : Nat) (seen : List Occurrence) (o : Occurrence) :
    lives s (seen ++ [o]) = o.note s (lives s seen) := by
  simp [lives]

theorem Occurrence.note_apart {o : Occurrence} (h : ¬ o.Lives s) (lives : List Life) :
    o.note s lives = lives := by
  cases o <;> first | rfl | exact if_neg h

/-- A stream has one life for each message that it has started. -/
theorem messages_lives (s : Nat) (seen : List Occurrence) :
    (lives s seen).map (·.message) = (startedOn s seen).reverse := by
  induction seen using List.reverseRecOn with
  | nil => rfl
  | append_singleton seen o ih =>
    rw [lives_append_singleton, startedOn_append, List.reverse_append, ← ih]
    cases o with
    | started i m =>
      by_cases h : i = s <;> simp [Occurrence.note, startedOn, Occurrence.startedOn?, h]
    | returned i p =>
      by_cases h : i = s
      · cases lives s seen <;> simp [Occurrence.note, startedOn, Occurrence.startedOn?, h]
      · simp [Occurrence.note, startedOn, Occurrence.startedOn?, h]
    | _ => simp [Occurrence.note, startedOn, Occurrence.startedOn?]

namespace Lived

variable {seen new : List Occurrence} {stage : Stage}

theorem append_apart (run : Lived s seen stage) (h : ∀ o ∈ new, ¬ o.Lives s) :
    Lived s (seen ++ new) stage := by
  induction new generalizing seen with
  | nil => simpa using run
  | cons o new ih =>
    rw [← List.singleton_append, ← List.append_assoc]
    exact ih (run.apart (h o List.mem_cons_self)) fun x hx => h x (List.mem_cons_of_mem o hx)

theorem silent_apart {o : Occurrence} (h : o.Silent) : ¬ o.Lives s := by
  cases o <;> first | exact id | exact h.elim

/-- What the latest life has come to at each stage. -/
def Latest : Stage → List Life → Prop
  | .idle, _ | .broken, _ => True
  | .waits q, lives => ∃ m rest, lives = ⟨m, q.past⟩ :: rest
  | .under p, lives => ∃ m rest, lives = ⟨m, p.before.past⟩ :: rest

/-- Lives whose phases have both returned are those that have completed, but for one that is about
to. -/
theorem fulfilled_eq (run : Lived s seen stage) :
    fulfilled s seen = completions s seen + (if stage = .waits .computed then 1 else 0) ∧
      Latest stage (lives s seen) := by
  induction run with
  | nil => exact ⟨rfl, trivial⟩
  | @apart seen stage o run apart ih =>
    have none : completions s [o] = 0 := by
      cases o <;> first | rfl | simpa [completions, Occurrence.Lives] using apart
    rw [fulfilled, completions_append, none, lives_append_singleton, Occurrence.note_apart apart]
    exact ih
  | @started seen run m ih =>
    rw [fulfilled, completions_append, lives_append_singleton]
    simpa [Occurrence.note, Life.fulfilled, completions, Latest, Status.past, fulfilled] using ih.1
  | @began seen p run ih =>
    rw [fulfilled, completions_append, lives_append_singleton]
    refine ⟨?_, ih.2⟩
    have := ih.1
    cases p <;> simpa [Occurrence.note, completions, Phase.before, fulfilled] using this
  | @returned seen p run ih =>
    obtain ⟨m, rest, latest⟩ := ih.2
    rw [fulfilled, latest] at ih
    rw [fulfilled, completions_append, lives_append_singleton, latest]
    have := ih.1
    cases p <;> simp_all [Occurrence.note, Life.fulfilled, completions, Latest, Status.past,
      Phase.before, Phase.after]
  | @aborted seen p run ih =>
    rw [fulfilled, completions_append, lives_append_singleton]
    simpa [Occurrence.note, completions, Latest, fulfilled] using ih.1
  | @completed seen run ih =>
    rw [fulfilled, completions_append, lives_append_singleton]
    simpa [Occurrence.note, completions, Latest, fulfilled] using ih.1
  | @abandoned seen run e ih =>
    rw [fulfilled, completions_append, lives_append_singleton]
    simpa [Occurrence.note, completions, Latest, fulfilled] using ih.1

end Lived

/-- The stage of an instruction below other frames. -/
def Frame.stage? (s : Nat) : Frame → Option Stage
  | .run i (p :: _) => if i.stream = s then some (.under p) else none
  | _ => none

/-- The stage that the innermost frame of a thread stands for. -/
def Frame.reached? (s : Nat) (control : Control) : Frame → Option Stage
  | .run i phases =>
    if i.stream = s then
      some <| match control, phases with
        | .unwind _, _ => .broken
        | .reply _, p :: _ => .waits p.after
        | _, _ => .waits i.status
    else none
  | .drain i _ _ =>
    if i = s then
      match control with
      | .run => none
      | .reply _ => some (.waits .computed)
      | .unwind _ => some .broken
    else none
  | _ => none

/-- The stages of the instructions of a stream on the stack of a thread. -/
def Thread.stages (s : Nat) (t : Thread) : List Stage :=
  (t.frames.head?.bind (·.reached? s t.control)).toList ++ t.frames.tail.filterMap (·.stage? s)

namespace Thread

variable {t : Thread} {frame : Frame} {outer : List Frame}

theorem stages_cons (frames : t.frames = frame :: outer) : t.stages s =
    (frame.reached? s t.control).toList ++ outer.filterMap (·.stage? s) := by
  rw [stages, frames]
  rfl

/-- A frame on top that stands for no stage. -/
theorem stages_eq_below (frames : t.frames = frame :: outer)
    (none : frame.reached? s t.control = none) : t.stages s = outer.filterMap (·.stage? s) := by
  rw [stages_cons frames, none]
  rfl

/-- Fresh frames, if any, on top of host code. -/
theorem stages_of_fresh (added : List Frame) (stack : t.frames = added ++ outer)
    (fresh : ∀ f ∈ added, f.Fresh) (run : added ≠ [] → t.control = .run)
    (host : ∀ g ∈ outer.head?, g.Open ∨ g.Schedules) :
    t.stages s = outer.filterMap (·.stage? s) := by
  cases added with
  | nil =>
    cases outer with
    | nil => simp [stages, stack]
    | cons g rest =>
      have open_top := host g rfl
      have none : g.reached? s t.control = none ∧ g.stage? s = none := by
        cases g <;> simp_all [Frame.reached?, Frame.stage?, Frame.Open, Frame.Schedules]
      rw [stages_eq_below stack none.1, List.filterMap_cons_none none.2]
  | cons f added =>
    have top := fresh f List.mem_cons_self
    have control := run (List.cons_ne_nil f added)
    have none : f.reached? s t.control = none := by
      cases f <;> simp_all [Frame.reached?, Frame.Fresh]
    have below : added.filterMap (·.stage? s) = [] := by
      rw [List.filterMap_eq_nil_iff]
      intro g hg
      have := fresh g (List.mem_cons_of_mem f hg)
      cases g <;> first | rfl | exact this.elim
    have stack : t.frames = f :: (added ++ outer) := stack
    rw [stages_eq_below stack none, List.filterMap_append, below, List.nil_append]

end Thread

/-- What a step can mean for the life that a stream leads. -/
inductive Passage (t : Thread) (r : Step) (s : Nat) : Prop
  | none (same : r.thread.stages s = t.stages s) (apart : ∀ o ∈ r.seen, ¬ o.Lives s)
  | start (m : Message) (seen : r.seen = [.started s m])
      (reached : r.thread.stages s = .waits .created :: t.stages s)
  | go (a b : Stage) (rest : List Stage) (busy : a ≠ .idle)
      (before : t.stages s = a.toList ++ rest) (after : r.thread.stages s = b.toList ++ rest)
      (lived : ∀ seen, Lived s seen a → Lived s (seen ++ r.seen) b)

theorem Status.eq_of_due {q : Status} {p : Phase} {phases : List Phase} (h : p :: phases = q.due) :
    q = p.before := by
  cases q <;> cases h <;> rfl

theorem Status.eq_computed_of_due {q : Status} (h : [] = q.due) : q = .computed := by
  cases q <;> first | rfl | cases h

namespace Passage

variable {w : World} {t : Thread} {r : Step} {outer : List Frame}

/-- Steps above or in a phase of an instruction, which goes on. -/
theorem of_fresh {frame : Frame} {below : List Frame} (added : List Frame) (frames : t.frames = frame :: outer)
    (none : frame.reached? s t.control = .none) (stack : r.thread.frames = added ++ below)
    (same : below.filterMap (·.stage? s) = outer.filterMap (·.stage? s))
    (fresh : ∀ f ∈ added, f.Fresh) (run : added ≠ [] → r.thread.control = .run)
    (host : ∀ g ∈ below.head?, g.Open ∨ g.Schedules) (silent : ∀ o ∈ r.seen, o.Silent) :
    Passage t r s := by
  refine .none ?_ fun o ho => Lived.silent_apart (silent o ho)
  rw [Thread.stages_of_fresh added stack fresh run host, Thread.stages_eq_below frames none, same]

/-- The innermost instruction gets from one stage to another, if it is on the stream. -/
theorem of_own (i : Nat) (a b : Stage) (rest : List Stage) (busy : a ≠ .idle)
    (before : t.stages s = (if i = s then a.toList else []) ++ rest)
    (after : r.thread.stages s = (if i = s then b.toList else []) ++ rest)
    (lived : ∀ seen, Lived i seen a → Lived i (seen ++ r.seen) b)
    (apart : i ≠ s → ∀ o ∈ r.seen, ¬ o.Lives s) : Passage t r s := by
  by_cases h : i = s
  · subst h
    rw [if_pos rfl] at before after
    exact .go a b rest busy before after lived
  · rw [if_neg h] at before after
    exact .none (after.trans before.symm) (apart h)

end Passage

/-- A drain that goes on is at no stage but that of the instruction above it. -/
theorem Turn.passage {w : World} {t : Thread} {r : Step} {i e : Nat} {p : DrainPoint}
    {outer : List Frame} (turn : Turn w t r) (frames : t.frames = .drain i p e :: outer)
    (ht : Nested w (.drain i p e :: outer)) (s : Nat) : Passage t r s := by
  have reached {control : Control} (run : t.control = control) :
      t.stages s = ((Frame.drain i p e).reached? s control).toList ++ outer.filterMap (·.stage? s) := by
    rw [Thread.stages_cons frames, run]
  have below {x : Thread} (stack : x.frames = outer) :
      x.stages s = outer.filterMap (·.stage? s) :=
    Thread.stages_of_fresh [] stack (by simp) (by simp) ht.1.2
  cases turn with
  | calm frame rest added frames' hf | push frame rest _ _ _ _ frames' hf
  | drain frame rest added _ frames' hf | enlist frame rest _ frames' hf =>
    rw [frames] at frames'
    cases frames'
    exact hf.elim
  | dismiss x saved rest frames' | proceed i i' phases phases' rest added seen frames'
  | finish x i phases rest seen frames' =>
    rw [frames] at frames'
    cases frames'
  | busy i e rest frames' run | rest i e rest frames' run =>
    rw [frames] at frames'
    cases frames'
    refine .none ?_ (by simp [Occurrence.Lives])
    rw [below rfl, reached run]
    simp [Frame.reached?]
  | seize i e rest frames' run | dry i e p rest frames' run | yield i e rest frames' run
  | again i e rest frames' run =>
    rw [frames] at frames'
    cases frames'
    refine .none ?_ (by simp)
    rw [Thread.stages_cons rfl, reached run]
    simp [Frame.reached?, Thread.goto]
  | start i e p rest message queue frames' run =>
    rw [frames] at frames'
    cases frames'
    by_cases own : i = s
    · subst own
      refine .start message rfl ?_
      rw [Thread.stages_cons rfl, reached run]
      simp [Frame.reached?, Frame.stage?, Thread.goto]
    · refine .none ?_ (by simpa [Occurrence.Lives] using own)
      rw [Thread.stages_cons rfl, reached run]
      simp [Frame.reached?, Frame.stage?, own]
  | complete i e p rest reply frames' control =>
    rw [frames] at frames'
    cases frames'
    refine .of_own i (.waits .computed) .idle
      (outer.filterMap (·.stage? s)) (by simp) ?_ ?_ (fun seen run => run.completed)
      (by simp [Occurrence.Lives])
    · rw [reached control]
      by_cases own : i = s <;> simp [Frame.reached?, Stage.toList, own]
    · rw [Thread.stages_cons rfl]
      by_cases own : i = s <;> simp [Frame.reached?, Stage.toList, Thread.goto, own]
  | abandon i e p rest panic frames' control =>
    rw [frames] at frames'
    cases frames'
    refine .of_own i .broken .idle
      (outer.filterMap (·.stage? s)) (by simp) ?_ ?_ (fun seen run => run.abandoned e)
      (by simp [Occurrence.Lives])
    · rw [reached control]
      by_cases own : i = s <;> simp [Frame.reached?, Stage.toList, own]
    · rw [below rfl]
      simp [Stage.toList]

theorem Stride.passage {w : World} {t : Thread} {r : Step} (h : Stride w t r)
    (ht : Nested w t.frames) (s : Nat) : Passage t r s := by
  cases h with
  | plain frame outer added frames plain stack fresh run sits spawned silent =>
    rw [frames] at ht
    refine .of_fresh added frames ?_ stack rfl fresh run (fun g hg => .inl (ht.open_below plain g hg)) silent
    cases frame <;> first | rfl | exact plain.elim
  | move i p old new outer added frames stack fresh run sits spawned silent =>
    exact .of_fresh added frames rfl stack rfl fresh run (by simp [Frame.Open]) silent
  | returned i p outer frames =>
    rw [frames] at ht
    obtain ⟨⟨phases, rest, rfl⟩, -⟩ := ht
    refine .of_own i.stream (.under p) (.waits p.after)
      (rest.filterMap (·.stage? s)) (by simp) ?_ ?_ (fun seen run => run.returned)
      (by simp [Occurrence.Lives])
    · rw [Thread.stages_eq_below frames rfl]
      by_cases own : i.stream = s <;> simp [Frame.stage?, Stage.toList, own]
    · rw [Thread.stages_cons rfl]
      by_cases own : i.stream = s <;> simp [Frame.reached?, Stage.toList, Thread.give, own]
  | aborted i p moves outer panic frames =>
    rw [frames] at ht
    obtain ⟨⟨phases, rest, rfl⟩, -⟩ := ht
    refine .of_own i.stream (.under p) .broken
      (rest.filterMap (·.stage? s)) (by simp) ?_ ?_ (fun seen run => run.aborted)
      (by simp [Occurrence.Lives])
    · rw [Thread.stages_eq_below frames rfl]
      by_cases own : i.stream = s <;> simp [Frame.stage?, Stage.toList, own]
    · rw [Thread.stages_cons rfl]
      by_cases own : i.stream = s <;> simp [Frame.reached?, Stage.toList, Thread.fail, own]
  | begin i p phases outer frames run ready =>
    refine .of_own i.stream (.waits p.before) (.under p)
      (outer.filterMap (·.stage? s)) (by simp) ?_ ?_ (fun seen run => ?_)
      (by simp [Occurrence.Lives])
    · rw [Thread.stages_cons frames, run]
      by_cases own : i.stream = s <;> simp [Frame.reached?, Stage.toList, ready, own]
    · rw [Thread.stages_eq_below rfl rfl]
      by_cases own : i.stream = s <;> simp [Frame.stage?, Stage.toList, own]
    · rw [ready]
      exact run.began
  | refuse i p phases outer v frames run early =>
    rw [frames] at ht
    exact (early (Status.eq_of_due ht.1.1)).elim
  | advance i p phases outer reply frames control =>
    refine .none ?_ (by simp)
    rw [Thread.stages_cons frames, Thread.stages_cons rfl, control]
    by_cases own : i.stream = s <;> simp [Frame.reached?, Instruction.advance, Thread.goto, own]
  | done i outer reply frames calm =>
    rw [frames] at ht
    obtain ⟨⟨due, -, e, rest, rfl⟩, -⟩ := ht
    refine .none ?_ (by simp)
    have stage : (Frame.run i []).reached? s t.control =
        if i.stream = s then some (.waits .computed) else none := by
      have computed := Status.eq_computed_of_due due
      cases control : t.control with
      | unwind panic => exact (calm panic control).elim
      | run | reply => simp [Frame.reached?, computed]
    rw [Thread.stages_cons frames, Thread.stages_cons rfl, stage]
    by_cases own : i.stream = s <;> simp [Frame.reached?, Frame.stage?, Thread.give, own]
  | fall i phases outer panic frames control =>
    rw [frames] at ht
    obtain ⟨⟨-, -, e, rest, rfl⟩, -⟩ := ht
    refine .none ?_ (by simp)
    rw [Thread.stages_cons frames, Thread.stages_cons rfl, control]
    by_cases own : i.stream = s <;> simp [Frame.reached?, Frame.stage?, Thread.fail, own]
  | visit i left total outer frames run =>
    exact .of_fresh [.drain i .enter 0] frames rfl rfl rfl (by simp [Frame.Fresh])
      (fun _ => rfl) (by simp [Frame.Schedules]) (by simp)
  | collect left total outer reply frames =>
    exact .of_fresh [] frames rfl rfl rfl (by simp) (by simp) (by simp [Frame.Schedules])
      (by simp)
  | sum total outer frames run =>
    rw [frames] at ht
    exact .of_fresh [] frames rfl rfl rfl (by simp) (by simp)
      (fun g hg => .inl (ht.1.2 g hg)) (by simp)
  | forsake left total outer panic frames control =>
    rw [frames] at ht
    exact .of_fresh [] frames rfl rfl rfl (by simp) (by simp)
      (fun g hg => .inl (ht.1.2 g hg)) (by simp)
  | drain i p e outer frames turn =>
    rw [frames] at ht
    exact turn.passage frames ht s

/-- Below other frames, an instruction stands on a drain that executes it. -/
theorem Nested.executes_of_stage {w : World} {frames : List Frame} (h : Nested w frames)
    {stage : Stage} (mem : stage ∈ frames.filterMap (·.stage? s)) :
    0 < frames.countP (Frame.executes s) := by
  obtain ⟨f, hf, at_stage⟩ := List.mem_filterMap.1 mem
  obtain ⟨inner, outer, rfl⟩ := List.append_of_mem hf
  have fits := h.of_append.1
  rw [List.countP_pos_iff]
  cases f with
  | run i phases =>
    obtain ⟨-, -, e, rest, rfl⟩ := fits
    have own : i.stream = s := by
      cases phases <;> simp_all [Frame.stage?]
    exact ⟨.drain i.stream .execute e, by simp, by simp [Frame.executes, own]⟩
  | _ => cases at_stage

/-- A thread with an instruction at some stage has a drain that executes it. -/
theorem Thread.executed_of_stages {w : World} {place : Nat → StreamCategory} {t : Thread}
    (nested : Nested w t.frames) (shaped : t.Shaped place) (some : t.stages s ≠ []) :
    0 < t.executed s := by
  cases frames : t.frames with
  | nil => simp [stages, frames] at some
  | cons f outer =>
    rw [frames] at nested
    rw [executed, frames, List.countP_cons]
    cases reached : f.reached? s t.control with
    | none =>
      obtain ⟨stage, mem⟩ := List.exists_mem_of_ne_nil _ (stages_eq_below frames reached ▸ some)
      have := nested.2.executes_of_stage mem
      omega
    | some stage =>
      cases f with
      | run i phases =>
        obtain ⟨-, -, e, rest, rfl⟩ := nested.1
        have own : i.stream = s := by
          by_contra other
          simp [Frame.reached?, other] at reached
        simp [Frame.executes, own]
      | drain i p e =>
        have own : i = s := by
          by_contra other
          simp [Frame.reached?, other] at reached
        have control : t.control ≠ .run := by
          intro run
          simp [Frame.reached?, run] at reached
        obtain ⟨rfl, -⟩ := shaped.below_ending frames control
        simp [Frame.executes, own]
      | _ => cases reached

theorem Turn.executed_of_start {w : World} {t : Thread} {r : Step} (turn : Turn w t r)
    (ht : t.Shaped w.categoryAt) {m : Message} (seen : r.seen = [.started s m]) :
    r.thread.executed s = t.executed s + 1 := by
  have started : turns s r.seen = [true] := by simp [seen, turns, Occurrence.turn?]
  cases turn.shift ht s with
  | start guard held executed => exact executed
  | none _ _ _ quiet | seize _ _ _ _ quiet | yield _ _ _ quiet | complete _ _ _ quiet
  | abandon _ _ _ quiet =>
    rw [quiet] at started
    cases started

namespace Machine

/-- The stages of the instructions of a stream on all stacks. -/
def stages (m : Machine) (s : Nat) : List Stage := m.threads.flatMap (·.stages s)

/-- Each stream leads one life, and the stacks are where it has got to. -/
def Staged (seen : List Occurrence) (m : Machine) : Prop :=
  ∀ s, ∃ stage, Lived s seen stage ∧ m.stages s = stage.toList

variable {m m' : Machine} {seen new : List Occurrence} {i : Nat} {t : Thread}

theorem stages_workers {threads : List Thread} (h : ∀ x ∈ threads, ∃ s, x = .worker s) (s : Nat) :
    threads.flatMap (·.stages s) = [] := by
  rw [List.flatMap_eq_nil_iff]
  intro x hx
  obtain ⟨i, rfl⟩ := h x hx
  by_cases own : i = s <;> simp [Thread.stages, Thread.worker, Frame.reached?]

/-- What one thread contributes to the stages. -/
theorem stages_set (found : m.threads[i]? = some t) (s : Nat) : ∃ before after,
    m.stages s = before ++ t.stages s ++ after ∧
    ∀ (w : World) (x : Thread) (spawned : List Thread), (∀ y ∈ spawned, ∃ s, y = .worker s) →
      (Machine.mk w (m.threads.set i x ++ spawned)).stages s = before ++ x.stages s ++ after := by
  obtain ⟨inside, rfl⟩ := List.getElem?_eq_some_iff.1 found
  have split (x : Thread) : m.threads.set i x =
      m.threads.take i ++ x :: m.threads.drop (i + 1) := List.set_eq_take_append_cons_drop.trans
    (if_pos inside)
  refine ⟨(m.threads.take i).flatMap (·.stages s), (m.threads.drop (i + 1)).flatMap (·.stages s),
    ?_, fun w x spawned workers => ?_⟩
  · have whole := split m.threads[i]
    rw [List.set_getElem_self] at whole
    calc m.stages s = (m.threads.take i ++ m.threads[i] :: m.threads.drop (i + 1)).flatMap
          (·.stages s) := by rw [← whole, stages]
      _ = _ := by rw [List.flatMap_append, List.flatMap_cons, List.append_assoc]
  · rw [stages, split, List.flatMap_append, stages_workers workers, List.append_nil,
      List.flatMap_append, List.flatMap_cons, List.append_assoc]

theorem stages_eq_nil_of_start (guarded : m.Guarded seen) (orderly : m.Orderly) {r : Step}
    (found : m.threads[i]? = some t) (turn : Turn m.world t r) {s : Nat} {message : Message}
    (start : r.seen = [.started s message]) : m.stages s = [] := by
  have after := (guarded.stepped found turn).last s
  have one := ((StreamMachine.turns s (seen ++ r.seen)).getLast?.getD false).toNat_le
  have executed := turn.executed_of_start (guarded.shaped t (List.mem_of_getElem? found)) start
  have count := countFrames_set found (Frame.executes s) r.thread
  change _ + t.executed s = _ + r.thread.executed s at count
  rw [stepped, countFrames_append,
    countFrames_workers (by simp [Frame.executes]) turn.spawned] at after
  rw [stages, List.flatMap_eq_nil_iff]
  intro x hx
  by_contra some
  have positive := Thread.executed_of_stages (orderly.nested x hx) (guarded.shaped x hx) some
  obtain ⟨j, place⟩ := List.getElem?_of_mem hx
  have := countP_le_countFrames place (Frame.executes s)
  change x.executed s ≤ _ at this
  omega

theorem Staged.stepped (h : m.Staged seen) (guarded : m.Guarded seen) (orderly : m.Orderly) {r : Step}
    (found : m.threads[i]? = some t) (turn : Turn m.world t r) (stride : Stride m.world t r) :
    (m.stepped i r).Staged (seen ++ r.seen) := by
  intro s
  obtain ⟨stage, lived, reached⟩ := h s
  obtain ⟨before, after, here, there⟩ := stages_set found s
  have next := there (m.world.after r.deed) r.thread r.spawned turn.spawned
  rw [here] at reached
  rw [Machine.stepped, next]
  cases stride.passage (orderly.nested t (List.mem_of_getElem? found)) s with
  | none same apart =>
    rw [same, reached]
    exact ⟨stage, lived.append_apart apart, rfl⟩
  | start message start fresh =>
    have none := stages_eq_nil_of_start guarded orderly found turn start
    rw [here, reached] at none
    obtain rfl : stage = .idle := by
      cases stage <;> first | rfl | cases none
    obtain ⟨rfl, empty, rfl⟩ := by simpa [Stage.toList] using reached
    rw [fresh, empty, start]
    exact ⟨_, lived.started message, rfl⟩
  | go a b rest busy was is life =>
    -- The list has one element at most, so it is that of this instruction.
    have single : a.toList = [a] := by
      cases a <;> first | rfl | exact (busy rfl).elim
    have only : stage.toList.length ≤ 1 := by cases stage <;> simp [Stage.toList]
    rw [was, single] at reached
    have empty : before = [] ∧ rest = [] ∧ after = [] := by
      rw [← reached] at only
      simp only [List.length_append, List.length_singleton] at only
      refine ⟨List.length_eq_zero_iff.1 ?_, List.length_eq_zero_iff.1 ?_,
        List.length_eq_zero_iff.1 ?_⟩ <;> omega
    obtain ⟨rfl, rfl, rfl⟩ := empty
    have same : stage = a := by
      cases stage <;> simp_all [Stage.toList]
    rw [is]
    exact ⟨b, life seen (same ▸ lived), by simp⟩

theorem Moves.staged (move : m.Moves new m') (guarded : m.Guarded seen) (orderly : m.Orderly)
    (h : m.Staged seen) : m'.Staged (seen ++ new) := by
  cases move with
  | step i step =>
    obtain ⟨t, r, found, taken, rfl, rfl⟩ := step_of_stepAt? step
    exact h.stepped guarded orderly found (Thread.turn_of_step? taken) (Thread.stride_of_step? taken)
  | expire i step =>
    obtain ⟨t, r, found, turn, stride, rfl, rfl⟩ := stride_of_expireAt? step
    exact h.stepped guarded orderly found turn stride
  | call command =>
    intro s
    obtain ⟨stage, lived, reached⟩ := h s
    refine ⟨stage, lived.append_apart (by simp), ?_⟩
    rw [← reached, stages, stages, List.flatMap_append]
    simp [Thread.stages, Thread.ofCommand, Frame.reached?]
  | offer i message =>
    intro s
    obtain ⟨stage, lived, reached⟩ := h s
    exact ⟨stage, lived.append_apart (by simp [Occurrence.Lives]), reached⟩
  | revise i t t' found revised =>
    intro s
    obtain ⟨stage, lived, reached⟩ := h s
    obtain ⟨before, after, here, there⟩ := stages_set found s
    have next := there m.world t' [] (by simp)
    rw [List.append_nil] at next
    have same : t'.stages s = t.stages s := by
      cases revised with
      | moves i p old new outer frames | actions a old new outer frames =>
        rw [Thread.stages_eq_below frames rfl, Thread.stages_eq_below rfl rfl]
    exact ⟨stage, lived.append_apart (by simp), by rw [next, same, ← here, reached]⟩

theorem Reaches.staged {m₀ : Machine} (run : m₀.Reaches seen m) (guarded : m₀.Guarded [])
    (orderly : m₀.Orderly) (h : m₀.Staged []) : m.Staged seen := by
  induction run with
  | refl => exact h
  | move earlier last ih => exact last.staged (earlier.guarded guarded) (earlier.orderly orderly) ih

theorem Staged.init (w : World) : Staged [] ⟨w, []⟩ := fun _ => ⟨.idle, .nil, rfl⟩

end Machine

/-- Frames in which user code runs, or that wait for it. -/
def Frame.Host : Frame → Prop
  | .drain .. | .run .. => False
  | _ => True

namespace Machine

/-- No thread is between two instructions or between the phases of one. -/
def InHostCode (m : Machine) : Prop := ∀ t ∈ m.threads, ∀ f ∈ t.frames.head?, f.Host

variable {m : Machine} {seen : List Occurrence}

theorem Staged.fulfilled_eq (h : m.Staged seen) (host : m.InHostCode) (s : Nat) :
    fulfilled s seen = completions s seen := by
  obtain ⟨stage, lived, reached⟩ := h s
  have ahead : stage ≠ .waits .computed := by
    rintro rfl
    have mem : .waits .computed ∈ m.stages s := by rw [reached]; exact List.mem_cons_self
    obtain ⟨t, ht, mem⟩ := List.mem_flatMap.1 mem
    rcases List.mem_append.1 mem with top | below
    · rw [Option.mem_toList, Option.bind_eq_some_iff] at top
      obtain ⟨f, innermost, at_top⟩ := top
      have := host t ht f innermost
      cases f <;> first | exact this | cases at_top
    · obtain ⟨f, -, at_stage⟩ := List.mem_filterMap.1 below
      cases f with
      | run i phases =>
        cases phases with
        | nil => cases at_stage
        | cons p phases =>
          simp only [Frame.stage?] at at_stage
          split at at_stage <;> cases at_stage
      | _ => cases at_stage
  rw [lived.fulfilled_eq.1, if_neg ahead, Nat.add_zero]

end Machine

end StreamMachine
