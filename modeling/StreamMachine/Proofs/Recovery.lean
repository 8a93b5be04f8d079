import StreamMachine.Proofs.Await
import StreamMachine.Proofs.Routing

/-! What a call for the pending instructions of a stream leaves behind, above all when it unwinds.
All that the call runs stands on one drain, which holds the guard; an instruction that panics ends
the drain, which gives the guard up and leaves all messages behind that one where they are. -/
namespace StreamMachine

/-- A message with the panic out of which its instruction has unwound, if it has. -/
abbrev Fate := Message × Option Panic

/-- How an instruction of a stream ends here, if one does. -/
def Pace.fate? (s : Nat) (x : Pace) : Option Fate :=
  match x.thread.frames, x.thread.control with
  | .run i _ :: _, .unwind panic => if i.stream = s then some (i.message, some panic) else none
  | .run i [] :: _, _ => if i.stream = s then some (i.message, none) else none
  | _, _ => none

/-- How the instructions of a stream have ended, in order. -/
def fates (s : Nat) (trace : List Pace) : List Fate := trace.filterMap (·.fate? s)

@[simp] theorem fates_append (s : Nat) (xs ys : List Pace) :
    fates s (xs ++ ys) = fates s xs ++ fates s ys := List.filterMap_append

theorem fates_singleton (s : Nat) (x : Pace) : fates s [x] = (x.fate? s).toList := by
  cases h : x.fate? s <;> simp [fates, h]

/-- The messages whose instructions have completed. -/
def calmly (messages : List Message) : List Fate := messages.map (·, none)

/-- Nothing of a stream starts or ends here. -/
structure Pace.Quiet (s : Nat) (x : Pace) : Prop where
  fate : x.fate? s = none
  started : startedOn s x.step.seen = []
  completed : completions s x.step.seen = 0

theorem Pace.fate?_eq_none {s : Nat} {x : Pace}
    (top : ∀ f ∈ x.thread.frames.head?, f.runs s = false) : x.fate? s = none := by
  rw [Pace.fate?]
  split
  next i phases outer panic frames control =>
    have other := top (.run i phases) (by rw [frames]; rfl)
    exact if_neg (by simpa [Frame.runs] using other)
  next i outer frames _ =>
    have other := top (.run i []) (by rw [frames]; rfl)
    exact if_neg (by simpa [Frame.runs] using other)
  · rfl

/-- Only on top of an instruction of a stream, or of a drain that holds its guard. -/
theorem Turn.quiet_of_top {w : World} {t : Thread} {r : Step} {s : Nat} (h : Turn w t r)
    (ht : t.Shaped w.categoryAt)
    (top : ∀ f ∈ t.frames.head?, f.runs s = false ∧ f.holds s = false) : Pace.Quiet s ⟨t, r⟩ := by
  refine ⟨Pace.fate?_eq_none fun f hf => (top f hf).1, ?_, ?_⟩
  · cases h with
    | start i e p outer message queue frames run point =>
      have free := (top (.drain i p e) (by rw [frames]; rfl)).2
      have other : i ≠ s := by
        rintro rfl
        obtain rfl | rfl := point <;> simp [Frame.holds] at free
      simp [startedOn, Occurrence.startedOn?, other]
    | calm _ _ _ _ _ _ _ _ _ _ silent | proceed _ _ _ _ _ _ _ _ _ _ _ silent
    | finish _ _ _ _ _ _ _ _ _ silent => exact startedOn_calm silent s
    | _ => simp [startedOn, Occurrence.startedOn?, Thread.notice]
  · refine (h.quiet fun p e outer frames => ?_).1
    by_contra control
    obtain ⟨rfl, -⟩ := ht.below_ending frames control
    have free := (top (.drain s .execute e) (by rw [frames]; rfl)).2
    simp [Frame.holds] at free

/-- The books of a call to drain a stream: the messages that have run, the one that it is at, and
how that has ended. -/
structure Tally (s : Nat) (trace : List Pace) (seen : List Occurrence)
    (firsts current : List Message) (ended : List Fate) : Prop where
  fates : fates s trace = calmly firsts ++ ended
  started : startedOn s seen = firsts ++ current
  completed : completions s seen = firsts.length

namespace Tally

variable {s : Nat} {trace : List Pace} {seen : List Occurrence} {firsts current : List Message}
  {ended : List Fate}

theorem quiet (h : Tally s trace seen firsts current ended) {x : Pace} (quiet : x.Quiet s) :
    Tally s (trace ++ [x]) (seen ++ x.step.seen) firsts current ended where
  fates := by rw [fates_append, h.fates]; simp [StreamMachine.fates, quiet.fate]
  started := by rw [startedOn_append, quiet.started, h.started, List.append_nil]
  completed := by rw [completions_append, quiet.completed, h.completed, Nat.add_zero]

end Tally

namespace Machine.Guarded

variable {m : Machine} {seen : List Occurrence} {i k s : Nat} {t x : Thread}

/-- A guard is free just if no drain holds it. -/
theorem free_iff (h : m.Guarded seen) (s : Nat) : m.world.executingAt s = false ↔
    ∀ t ∈ m.threads, ∀ f ∈ t.frames, f.holds s = false := by
  have held := h.held s
  have none : countFrames (Frame.holds s) m.threads = 0 ↔
      ∀ t ∈ m.threads, ∀ f ∈ t.frames, f.holds s = false := by
    simp only [countFrames, List.countP_eq_zero, List.mem_flatMap, Bool.not_eq_true]
    constructor
    · exact fun h t ht f hf => h f ⟨t, ht, hf⟩
    · rintro h f ⟨t, ht, hf⟩
      exact h t ht f hf
  rw [← none, held]
  cases m.world.executingAt s <;> simp

theorem held_le_one (h : m.Guarded seen) (found : m.threads[k]? = some t) (s : Nat) :
    t.held s ≤ 1 := by
  have le := countP_le_countFrames found (Frame.holds s)
  have := (m.world.executingAt s).toNat_le
  rw [h.held] at le
  rw [Thread.held]
  omega

/-- While a thread holds the guard of a stream, the others have nothing of that stream under way. -/
theorem free_of_other (h : m.Guarded seen) (found : m.threads[k]? = some t) (holds : 0 < t.held s)
    (found' : m.threads[i]? = some x) (other : i ≠ k) :
    ∀ f ∈ x.frames, f.runs s = false ∧ f.holds s = false := by
  have none : x.frames.countP (Frame.holds s) = 0 := by
    have rest : (m.threads.set k ⟨[], .run, []⟩)[i]? = some x := by
      rw [List.getElem?_set_ne (Ne.symm other), found']
    have le := countP_le_countFrames rest (Frame.holds s)
    have set := countFrames_set found (Frame.holds s) ⟨[], .run, []⟩
    have := (m.world.executingAt s).toNat_le
    rw [h.held] at set
    rw [Thread.held] at holds
    simp only [List.countP_nil] at set
    omega
  have runs := (h.shaped x (List.mem_of_getElem? found')).runs_le_holds s
  rw [none, Nat.le_zero] at runs
  intro f hf
  constructor
  · simpa using List.countP_eq_zero.1 runs f hf
  · simpa using List.countP_eq_zero.1 none f hf

/-- Nor does the thread itself on top of the instruction that it runs. -/
theorem free_of_above (h : m.Guarded seen) (found : m.threads[k]? = some t) {f : Frame}
    {inner outer : List Frame} {j : Instruction} {phases : List Phase} {e : Nat}
    (frames : t.frames = f :: (inner ++ .run j phases :: .drain s .execute e :: outer))
    (own : j.stream = s) : f.runs s = false ∧ f.holds s = false := by
  have one := h.held_le_one found s
  have runs := (h.shaped t (List.mem_of_getElem? found)).runs_le_holds s
  rw [Thread.held] at one
  have count (p : Frame → Bool) : (p f).toNat + (p (.run j phases)).toNat +
      (p (.drain s .execute e)).toNat ≤ t.frames.countP p := by
    rw [frames, List.countP_cons, List.countP_append, List.countP_cons, List.countP_cons]
    cases p f <;> cases p (.run j phases) <;> cases p (.drain s .execute e) <;> simp <;> omega
  have ran := count (Frame.runs s)
  have held := count (Frame.holds s)
  rw [show (Frame.run j phases).runs s = true by simp [Frame.runs, own], Bool.toNat_true] at ran
  rw [show (Frame.drain s .execute e).holds s = true by simp [Frame.holds], Bool.toNat_true] at held
  constructor
  · by_contra more
    rw [Bool.not_eq_false] at more
    rw [more, Bool.toNat_true] at ran
    omega
  · by_contra more
    rw [Bool.not_eq_false] at more
    rw [more, Bool.toNat_true] at held
    omega

end Machine.Guarded

/-- Where a call to run the pending instructions of a stream stands, on top of other frames; the
guard of the stream may have been taken when it began. -/
inductive Front (s : Nat) (outer : List Frame) (taken : Bool) (w : World) (trace : List Pace)
    (seen : List Occurrence) (t : Thread) : Prop
  | calling (category : StreamCategory) (known : w.streamOf? category = some s)
      (frames : t.frames = .command (.runPending category) :: outer) (run : t.control = .run)
      (guard : w.executingAt s = taken) (tally : Tally s trace seen [] [] [])
  | loop (firsts : List Message) (p : DrainPoint)
      (frames : t.frames = .drain s p firsts.length :: outer) (run : t.control = .run)
      (idle : p ≠ .execute) (tally : Tally s trace seen firsts [] [])
      (guard : p = .enter ∨ p = .recheck → w.executingAt s = true → taken = true ∧ firsts = [])
  | inside (firsts : List Message) (inner : List Frame) (i : Instruction) (phases : List Phase)
      (frames : t.frames = inner ++ .run i phases :: .drain s .execute firsts.length :: outer)
      (own : i.stream = s) (tally : Tally s trace seen firsts [i.message] [])
  | replied (firsts : List Message) (last : Message) (reply : Reply)
      (frames : t.frames = .drain s .execute firsts.length :: outer)
      (control : t.control = .reply reply) (tally : Tally s trace seen firsts [last] [(last, none)])
  | broken (firsts : List Message) (last : Message) (panic : Panic)
      (frames : t.frames = .drain s .execute firsts.length :: outer)
      (control : t.control = .unwind panic)
      (tally : Tally s trace seen firsts [last] [(last, some panic)])
  | returned (firsts : List Message) (frames : t.frames = outer)
      (control : t.control = .reply (.count firsts.length))
      (tally : Tally s trace seen firsts [] [])
      (emptied : taken = false → w.queueAt s = [] ∧ w.executingAt s = false)
  | unwound (firsts : List Message) (last : Message) (panic : Panic) (frames : t.frames = outer)
      (control : t.control = .unwind panic)
      (tally : Tally s trace seen firsts [last] [(last, some panic)])
      (free : w.executingAt s = false)

namespace Front

variable {s : Nat} {outer : List Frame} {taken : Bool}
  {trace : List Pace} {past seen : List Occurrence} {m : Machine} {t : Thread} {r : Step}

/-- In the loop of the drain. -/
theorem next_loop {firsts : List Message} {p : DrainPoint}
    (turn : Turn m.world t r) (known : s < m.world.streams.length)
    (frames : t.frames = .drain s p firsts.length :: outer) (run : t.control = .run)
    (tally : Tally s trace seen firsts [] [])
    (guard : p = .enter ∨ p = .recheck → m.world.executingAt s = true →
      taken = true ∧ firsts = []) :
    Front s outer taken (m.world.after r.deed) (trace ++ [⟨t, r⟩]) (seen ++ r.seen)
      r.thread := by
  have top : ∀ f ∈ t.frames.head?, f.runs s = false := by simp [frames, Frame.runs]
  have quiet (none : startedOn s r.seen = []) (none' : completions s r.seen = 0) :
      Pace.Quiet s ⟨t, r⟩ := ⟨Pace.fate?_eq_none top, none, none'⟩
  have stream : m.world.streams[s]? = some m.world.streams[s] := List.getElem?_eq_getElem known
  cases turn with
  | calm frame rest added frames' calm | push frame rest _ _ _ _ frames' calm
  | drain frame rest added _ frames' calm | enlist frame rest _ frames' calm =>
    rw [frames] at frames'
    cases frames'
    exact calm.elim
  | dismiss x saved rest frames' | proceed i i' phases phases' rest added seen frames'
  | finish x i phases rest seen frames' =>
    rw [frames] at frames'
    cases frames'
  | complete i e q rest reply frames' control | abandon i e q rest panic frames' control =>
    rw [run] at control
    cases control
  | busy i e rest frames' run' held =>
    rw [frames] at frames'
    cases frames'
    have held : m.world.executingAt s = true := by simpa [World.executingAt, stream] using held
    obtain ⟨taken, rfl⟩ := guard (.inl rfl) held
    exact .returned [] rfl rfl (tally.quiet (quiet (by simp [startedOn, Occurrence.startedOn?])
      (by simp [completions]))) (by simp [taken])
  | rest i e rest frames' run' empty =>
    rw [frames] at frames'
    cases frames'
    refine .returned firsts rfl rfl (tally.quiet (quiet (by simp [startedOn, Occurrence.startedOn?])
      (by simp [completions]))) fun free => ⟨empty, ?_⟩
    by_contra held
    simp [(guard (.inr rfl) (by simpa using held)).1] at free
  | seize i e rest frames' | dry i e q rest frames' =>
    rw [frames] at frames'
    cases frames'
    exact .loop firsts _ rfl rfl (by simp) (tally.quiet (quiet rfl rfl)) (by simp)
  | yield i e rest frames' =>
    rw [frames] at frames'
    cases frames'
    refine .loop firsts _ rfl rfl (by simp) (tally.quiet (quiet rfl rfl)) fun _ held => ?_
    simp [World.executingAt_setExecuting, stream] at held
  | again i e rest frames' =>
    rw [frames] at frames'
    cases frames'
    exact .loop firsts _ rfl rfl (by simp) (tally.quiet (quiet rfl rfl)) fun _ held =>
      guard (.inr rfl) held
  | start i e q rest message queue frames' =>
    rw [frames] at frames'
    cases frames'
    refine .inside firsts [] ⟨message, s, .created⟩ _ rfl rfl ⟨?_, ?_, ?_⟩
    · rw [fates_append, tally.fates, fates_singleton, Pace.fate?_eq_none top]
      simp
    · rw [startedOn_append, tally.started]
      simp [startedOn, Occurrence.startedOn?]
    · rw [completions_append, tally.completed]
      simp [completions]

/-- An instruction has returned to the drain. -/
theorem next_replied {firsts : List Message} {last : Message} {reply : Reply} (goes : t.Goes m r)
    (frames : t.frames = .drain s .execute firsts.length :: outer)
    (control : t.control = .reply reply)
    (tally : Tally s trace seen firsts [last] [(last, none)]) :
    Front s outer taken (m.world.after r.deed) (trace ++ [⟨t, r⟩]) (seen ++ r.seen)
      r.thread := by
  have top : ∀ f ∈ t.frames.head?, f.runs s = false := by simp [frames, Frame.runs]
  obtain rfl := goes.of_reply frames control
  refine .loop (firsts ++ [last]) .take (by simp [Thread.stepReply, Thread.goto]) rfl (by simp)
    ⟨?_, ?_, ?_⟩ (by simp)
  · rw [fates_append, tally.fates, fates_singleton, Pace.fate?_eq_none top]
    simp [calmly]
  · rw [startedOn_append, tally.started]
    simp [Thread.stepReply, startedOn, Occurrence.startedOn?]
  · rw [completions_append, tally.completed]
    simp [Thread.stepReply, completions]

/-- An instruction unwinds through the drain. -/
theorem next_broken {firsts : List Message} {last : Message} {panic : Panic} (goes : t.Goes m r)
    (frames : t.frames = .drain s .execute firsts.length :: outer)
    (control : t.control = .unwind panic)
    (tally : Tally s trace seen firsts [last] [(last, some panic)]) :
    Front s outer taken (m.world.after r.deed) (trace ++ [⟨t, r⟩]) (seen ++ r.seen)
      r.thread := by
  have top : ∀ f ∈ t.frames.head?, f.runs s = false := by simp [frames, Frame.runs]
  obtain rfl := goes.of_unwind frames control
  refine .unwound firsts last panic rfl rfl (tally.quiet ⟨Pace.fate?_eq_none top, ?_, ?_⟩) ?_
  · simp [Thread.stepUnwind, startedOn, Occurrence.startedOn?]
  · simp [Thread.stepUnwind, completions]
  · rw [Thread.stepUnwind, World.executingAt_setExecuting, if_pos rfl]
    cases m.world.streams[s]? <;> rfl

/-- An instruction goes on, or ends. -/
theorem next_run {firsts : List Message} {i : Instruction} {phases : List Phase} (goes : t.Goes m r)
    (nested : Nested m.world t.frames)
    (frames : t.frames = .run i phases :: .drain s .execute firsts.length :: outer)
    (own : i.stream = s) (tally : Tally s trace seen firsts [i.message] []) :
    Front s outer taken (m.world.after r.deed) (trace ++ [⟨t, r⟩]) (seen ++ r.seen)
      r.thread := by
  have stays {x : Pace} (fate : x.fate? s = none) (silent : ∀ o ∈ x.step.seen, o.Calm) :
      x.Quiet s := ⟨fate, startedOn_calm silent s, (completions_calm silent s).1⟩
  have ends {d : Deed} {x : Thread} {panic : Option Panic}
      (fate : Pace.fate? s ⟨t, ⟨d, x, [], []⟩⟩ = some (i.message, panic)) :
      Tally s (trace ++ [⟨t, ⟨d, x, [], []⟩⟩]) (seen ++ []) firsts [i.message]
        [(i.message, panic)] := by
    refine ⟨?_, by simpa using tally.started, by simpa using tally.completed⟩
    rw [fates_append, tally.fates, fates_singleton, fate]
    simp
  cases control : t.control with
  | unwind panic =>
    obtain rfl := goes.of_unwind frames control
    exact .broken firsts i.message panic rfl rfl (ends (by simp [Pace.fate?, frames, control, own]))
  | reply reply =>
    obtain rfl := goes.of_reply frames control
    cases phases with
    | nil =>
      exact .replied firsts i.message reply rfl rfl
        (ends (by simp [Pace.fate?, frames, control, own]))
    | cons p phases =>
      exact .inside firsts [] (i.advance p) phases rfl own
        (tally.quiet (stays (by simp [Pace.fate?, frames, control]) (by simp [Thread.stepReply])))
  | run =>
    obtain step := goes.of_frame frames control (by simp)
    simp only [Thread.stepFrame?, Option.some.injEq] at step
    subst step
    cases phases with
    | nil =>
      exact .replied firsts i.message .ok rfl rfl
        (ends (by simp [Pace.fate?, frames, control, own]))
    | cons p phases =>
      -- The phases are those that are due, so the instruction is ready for the first of them.
      have ready : i.status = p.before := by
        rw [frames] at nested
        have due := nested.1.1
        cases status : i.status <;> rw [status] at due <;> cases due <;> rfl
      have check : i.checkStatus p = .ok () := if_pos ready
      have quiet : Pace.Quiet s
          ⟨t, t.stepRun i (p :: phases) (.drain s .execute firsts.length :: outer)⟩ := by
        refine stays (by simp [Pace.fate?, frames, control]) ?_
        simp [Thread.stepRun, check, Occurrence.Calm]
      simp only [Thread.stepRun, check] at quiet ⊢
      exact .inside firsts [.phase i p _] i (p :: phases) rfl own (tally.quiet quiet)

/-- The call becomes a drain. -/
theorem next_calling {category : StreamCategory} (goes : t.Goes m r)
    (known : m.world.streamOf? category = some s)
    (frames : t.frames = .command (.runPending category) :: outer) (run : t.control = .run)
    (guard : m.world.executingAt s = taken) (tally : Tally s trace seen [] [] []) :
    Front s outer taken (m.world.after r.deed) (trace ++ [⟨t, r⟩]) (seen ++ r.seen)
      r.thread := by
  have top : ∀ f ∈ t.frames.head?, f.runs s = false := by simp [frames, Frame.runs]
  obtain step := goes.of_frame frames run (by simp)
  simp only [Thread.stepFrame?, Thread.stepCommand?, known, Option.some.injEq] at step
  subst step
  refine .loop [] .enter rfl rfl (by simp) (tally.quiet ⟨Pace.fate?_eq_none top, rfl, rfl⟩) ?_
  exact fun _ held => ⟨guard.symm.trans held, rfl⟩

/-- The thread of the call goes on. -/
theorem next (h : Front s outer taken m.world trace seen t) (goes : t.Goes m r) {k : Nat}
    (found : m.threads[k]? = some t) (known : s < m.world.streams.length)
    (guarded : m.Guarded (past ++ seen)) (orderly : m.Orderly)
    (under : outer.length < t.frames.length) :
    Front s outer taken (m.world.after r.deed) (trace ++ [⟨t, r⟩]) (seen ++ r.seen)
      r.thread := by
  have mem := List.mem_of_getElem? found
  have turn := goes.turn_stride.1
  cases h with
  | calling category known frames run guard tally =>
    exact next_calling goes known frames run guard tally
  | loop firsts p frames run idle tally guard => exact next_loop turn known frames run tally guard
  | replied firsts last reply frames control tally => exact next_replied goes frames control tally
  | broken firsts last panic frames control tally => exact next_broken goes frames control tally
  | returned firsts frames => simp [frames] at under
  | unwound firsts last panic frames => simp [frames] at under
  | inside firsts inner i phases frames own tally =>
    cases inner with
    | nil => exact next_run goes (orderly.nested t mem) frames own tally
    | cons f inner =>
      obtain ⟨added, stack⟩ := turn.above frames
      have top : ∀ g ∈ t.frames.head?, g.runs s = false ∧ g.holds s = false := by
        intro g hg
        obtain rfl : f = g := by simpa [frames] using hg
        exact guarded.free_of_above found frames own
      exact .inside firsts (added ++ inner) i phases (by simp [stack]) own
        (tally.quiet (turn.quiet_of_top (guarded.shaped t mem) top))

/-- Another thread goes on, which the call has started and waits for. -/
theorem other (h : Front s outer taken m.world trace seen t) {k i : Nat} {x : Thread}
    (found : m.threads[k]? = some t) (found' : m.threads[i]? = some x) (differ : i ≠ k)
    (goes : x.Goes m r) (guarded : m.Guarded (past ++ seen)) {ids : List Nat}
    (waits : t.WaitsFor ids) :
    Front s outer taken (m.world.after r.deed) (trace ++ [⟨x, r⟩]) (seen ++ r.seen) t := by
  obtain ⟨run, rest, join⟩ := waits
  cases h with
  | calling _ _ frames | loop firsts p frames =>
    rw [frames] at join
    cases join
  | replied firsts last reply frames control | broken firsts last panic frames control
  | returned firsts frames control | unwound firsts last panic frames control =>
    rw [run] at control
    cases control
  | inside firsts inner i' phases frames own tally =>
    have holds : 0 < t.held s := by simp [Thread.held, frames, Frame.holds]
    have free := guarded.free_of_other found holds found' differ
    have shaped := guarded.shaped x (List.mem_of_getElem? found')
    exact .inside firsts inner i' phases frames own (tally.quiet
      (goes.turn_stride.1.quiet_of_top shaped fun f hf => free f (List.mem_of_mem_head? hf)))

/-- Back on the frames that it stands on, a call has returned or has unwound. -/
theorem of_ended {w : World} (h : Front s outer taken w trace seen t)
    (frames : t.frames = outer) :
    (∃ firsts, t.control = .reply (.count firsts.length) ∧ Tally s trace seen firsts [] [] ∧
      (taken = false → w.queueAt s = [] ∧ w.executingAt s = false)) ∨
    ∃ firsts last panic, t.control = .unwind panic ∧
      Tally s trace seen firsts [last] [(last, some panic)] ∧ w.executingAt s = false := by
  cases h with
  | returned firsts _ control tally emptied => exact .inl ⟨firsts, control, tally, emptied⟩
  | unwound firsts last panic _ control tally free =>
    exact .inr ⟨firsts, last, panic, control, tally, free⟩
  | calling _ _ frames' | loop _ _ frames' | replied _ _ _ frames' | broken _ _ _ frames' =>
    rw [frames] at frames'
    exact (List.cons_ne_self _ _ frames'.symm).elim
  | inside _ inner _ _ frames' =>
    have := congrArg List.length (frames.symm.trans frames')
    simp at this
    omega

end Front

/-- What holds of a machine from its creation on, after all that it has shown. -/
structure Machine.Sound (past : List Occurrence) (m : Machine) : Prop where
  guarded : m.Guarded past
  orderly : m.Orderly

/-- The first steps of a thread, with no other in between. -/
def Machine.stepsAt? (m : Machine) (i : Nat) : Nat → Option (Machine × List Occurrence)
  | 0 => some (m, [])
  | n + 1 => do
    let (m, seen) ← m.stepAt? i
    let (m, rest) ← m.stepsAt? i n
    pure (m, seen ++ rest)

namespace Machine.Reaches

variable {m₀ m : Machine} {seen : List Occurrence}

theorem streamOf? (run : m₀.Reaches seen m) (category : StreamCategory) :
    m.world.streamOf? category = m₀.world.streamOf? category := by
  rw [World.streamOf?_eq, run.profiles, ← World.streamOf?_eq]

theorem categoryAt (run : m₀.Reaches seen m) : m.world.categoryAt = m₀.world.categoryAt := by
  funext s
  rw [World.categoryAt_eq, run.profiles, ← World.categoryAt_eq]

end Machine.Reaches

/-- The spans that belong to a stack are told by its frames. -/
theorem Grounded.unique {place : Nat → StreamCategory} {frames : List Frame}
    {spans other : List Span} (h : Grounded place frames spans)
    (h' : Grounded place frames other) : spans = other := by
  induction h generalizing other with
  | nil =>
    cases h'
    rfl
  | calm hf below ih =>
    cases h' with
    | calm _ below' => exact ih below'
    | helper | run => exact hf.elim
  | helper below ih =>
    cases h' with
    | calm hf => exact hf.elim
    | helper => rfl
  | run below ih =>
    cases h' with
    | calm hf => exact hf.elim
    | run below' => rw [ih below']

namespace Machine.Sound

variable {m m' : Machine} {past seen : List Occurrence}

theorem init {config : MachineConfig} {registry : Registry} {w : World}
    (created : World.create config registry = .ok w) : Sound [] ⟨w, []⟩ :=
  ⟨.init w (World.executingAt_create created), .init created⟩

theorem after (h : m.Sound past) (run : m.Reaches seen m') : m'.Sound (past ++ seen) := by
  refine ⟨?_, run.orderly h.orderly⟩
  induction run with
  | refl => simpa using h.guarded
  | move _ last ih =>
    rw [← List.append_assoc]
    exact last.guarded ih

end Machine.Sound

/-- A call for the pending instructions of a stream is about to begin, be it by its category or, as
a schedule has it, by its place. -/
structure Call.Begins (c : Call) (s : Nat) (m : Machine) : Prop where
  thread : ∃ t, m.threads[c.place]? = some t ∧ t.control = .run ∧
    (t.frames = .drain s .enter 0 :: c.outer ∨ ∃ category,
      m.world.streamOf? category = some s ∧ t.frames = .command (.runPending category) :: c.outer)
  floor : c.floor = m.threads.length

namespace Call

variable {c : Call} {s : Nat} {m₀ m : Machine} {trace : List Pace} {past seen : List Occurrence}

theorem Begins.awaited (h : c.Begins s m₀) : c.Awaited m₀ := by
  obtain ⟨t, found, -⟩ := h.thread
  refine ⟨h.floor ▸ (List.getElem?_eq_some_iff.1 found).1, h.floor.le, fun j x above found' => ?_⟩
  have := (List.getElem?_eq_some_iff.1 found').1
  have := h.floor
  omega

theorem Begins.known (h : c.Begins s m₀) (sound : m₀.Sound past) : s < m₀.world.streams.length := by
  obtain ⟨t, found, -, frames | ⟨category, known, -⟩⟩ := h.thread
  · have nested := sound.orderly.nested t (List.mem_of_getElem? found)
    rw [frames] at nested
    exact nested.1.1
  · exact World.lt_of_streamOf? known

/-- At every point of a call its thread stands where a call can stand. -/
theorem Runs.front (run : c.Runs m₀ trace seen m) (begins : c.Begins s m₀) (sound : m₀.Sound past) :
    ∃ t, m.threads[c.place]? = some t ∧
      Front s c.outer (m₀.world.executingAt s) m.world trace seen t := by
  induction run with
  | refl =>
    obtain ⟨t, found, run, frames | ⟨category, known, frames⟩⟩ := begins.thread
    · exact ⟨t, found, .loop [] .enter frames run (by simp) ⟨rfl, rfl, rfl⟩
        fun _ held => ⟨held, rfl⟩⟩
    · exact ⟨t, found, .calling category known frames run rfl ⟨rfl, rfl, rfl⟩⟩
  | @go m trace seen run i x r found covered goes ih =>
    obtain ⟨t, foundk, front⟩ := ih
    have known := begins.known sound
    rw [← run.reaches.length_streams] at known
    have sound := sound.after run.reaches
    by_cases same : i = c.place
    · subst same
      obtain rfl : x = t := Option.some.inj (found.symm.trans foundk)
      have awaited := begins.awaited.run run
      have under : c.outer.length < x.frames.length :=
        covered.elim And.right fun above => absurd awaited.early (Nat.not_lt.2 above)
      exact ⟨r.thread, Machine.getElem?_stepped found r,
        front.next goes found known sound.guarded sound.orderly under⟩
    · have above : c.floor ≤ i := covered.resolve_left fun h => same h.1
      have low := (List.getElem?_eq_some_iff.1 foundk).1
      -- A thread that the call has started goes on only while the call waits.
      obtain ⟨ids, waits⟩ : ∃ ids, t.WaitsFor ids := by
        by_contra busy
        exact goes.frames_ne_nil
          ((begins.awaited.run run).ended foundk (by simpa using busy) above found)
      exact ⟨t, by rw [Machine.getElem?_stepped_of_ne low (Ne.symm same), foundk],
        front.other foundk found same goes sound.guarded waits⟩

/-- The thread of a call is back on the frames that the call stands on. -/
def Ends (c : Call) (m : Machine) (control : Control) : Prop :=
  ∃ t, m.threads[c.place]? = some t ∧ t.frames = c.outer ∧ t.control = control

/-- What a call leaves behind that has unwound: all messages up to the one that has panicked have
left the queue, and all others are in it. -/
structure Broken (s : Nat) (panic : Panic) (firsts : List Message) (last : Message) (m₀ : Machine)
    (trace : List Pace) (seen : List Occurrence) (m : Machine) : Prop where
  fates : fates s trace = calmly firsts ++ [(last, some panic)]
  started : startedOn s seen = firsts ++ [last]
  queue : m₀.world.queueAt s ++ acceptedOn s seen = firsts ++ last :: m.world.queueAt s
  completed : m.world.completedAt s = m₀.world.completedAt s + firsts.length
  free : m.world.executingAt s = false

/-- What a call leaves behind that has returned. -/
structure Emptied (s : Nat) (firsts : List Message) (m₀ : Machine) (trace : List Pace)
    (seen : List Occurrence) (m : Machine) : Prop where
  fates : fates s trace = calmly firsts
  started : startedOn s seen = firsts
  queue : m₀.world.queueAt s ++ acceptedOn s seen = firsts
  empty : m.world.queueAt s = []
  completed : m.world.completedAt s = m₀.world.completedAt s + firsts.length
  free : m.world.executingAt s = false

theorem Runs.broken (run : c.Runs m₀ trace seen m) (begins : c.Begins s m₀)
    (sound : m₀.Sound past) {panic : Panic} (ended : c.Ends m (.unwind panic)) :
    ∃ firsts last, Broken s panic firsts last m₀ trace seen m := by
  have ledger := run.reaches.ledger s
  have counter := run.reaches.completedAt (begins.known sound)
  obtain ⟨t, found, frames, control⟩ := ended
  obtain ⟨x, found', front⟩ := run.front begins sound
  obtain rfl : x = t := Option.some.inj (found'.symm.trans found)
  obtain ⟨firsts, control', -⟩ | ⟨firsts, last, panic', control', tally, free⟩ :=
    front.of_ended frames
  · rw [control] at control'
    cases control'
  · rw [control] at control'
    cases control'
    refine ⟨firsts, last, tally.fates, tally.started, ?_, by rw [counter, tally.completed], free⟩
    rw [← ledger, tally.started]
    simp

theorem Runs.emptied (run : c.Runs m₀ trace seen m) (begins : c.Begins s m₀) (sound : m₀.Sound past)
    (free : m₀.world.executingAt s = false) {reply : Reply} (ended : c.Ends m (.reply reply)) :
    ∃ firsts, reply = .count firsts.length ∧ Emptied s firsts m₀ trace seen m := by
  have ledger := run.reaches.ledger s
  have counter := run.reaches.completedAt (begins.known sound)
  obtain ⟨t, found, frames, control⟩ := ended
  obtain ⟨x, found', front⟩ := run.front begins sound
  obtain rfl : x = t := Option.some.inj (found'.symm.trans found)
  obtain ⟨firsts, control', tally, emptied⟩ | ⟨firsts, last, panic', control', -⟩ :=
    front.of_ended frames
  · rw [control] at control'
    cases control'
    obtain ⟨empty, free⟩ := emptied free
    have started : startedOn s seen = firsts := by simpa using tally.started
    have fates : fates s trace = calmly firsts := by simpa using tally.fates
    rw [empty, started, List.append_nil] at ledger
    exact ⟨firsts, rfl, fates, started, ledger.symm, empty, by rw [counter, tally.completed], free⟩
  · rw [control] at control'
    cases control'

/-- A call that has come back has left all instructions that it has entered. -/
theorem Runs.spans (run : c.Runs m₀ trace seen m) (begins : c.Begins s m₀) (sound : m₀.Sound past)
    {control : Control} (done : control ≠ .run) (ended : c.Ends m control) :
    (m.threads[c.place]?).map (·.spans) = (m₀.threads[c.place]?).map (·.spans) := by
  obtain ⟨t₀, found₀, run₀, frames₀⟩ := begins.thread
  obtain ⟨t, found, frames, rfl⟩ := ended
  have mem₀ := List.mem_of_getElem? found₀
  have place : m.world.categoryAt = m₀.world.categoryAt := run.reaches.categoryAt
  have shaped := sound.guarded.shaped t₀ mem₀
  have nested := sound.orderly.nested t₀ mem₀
  obtain ⟨before, host⟩ : Grounded m₀.world.categoryAt c.outer t₀.spans ∧
      ∀ f ∈ c.outer.head?, f.Open ∨ f.Schedules := by
    obtain frames₀ | ⟨category, -, frames₀⟩ := frames₀ <;> rw [frames₀] at nested
    · exact ⟨(shaped.below_loop frames₀ run₀).2, nested.1.2⟩
    · exact ⟨shaped.below frames₀ trivial, fun f hf => .inl (nested.1 f hf)⟩
  rw [found₀, found, Option.map_some, Option.map_some]
  cases (sound.after run.reaches).guarded.shaped t (List.mem_of_getElem? found) with
  | host stack =>
    rw [frames, place] at stack
    rw [stack.unique before]
  | loop _ _ _ _ _ run => exact (done run).elim
  | ending i e span outer spans frames' =>
    obtain no | no := host (.drain i .execute e) (by rw [← frames, frames']; rfl)
    all_goals exact no.elim

/-- With the guard free, to run the pending instructions of a stream is to take up first the message
that has waited longest. -/
theorem takes_first {category : StreamCategory} {i : Nat} {t : Thread} {outer : List Frame}
    (found : m.threads[i]? = some t) (frames : t.frames = .command (.runPending category) :: outer)
    (run : t.control = .run) (known : m.world.streamOf? category = some s)
    (free : m.world.executingAt s = false) {message : Message} {rest : List Message}
    (queue : m.world.queueAt s = message :: rest) :
    ∃ m', m.stepsAt? i 3 = some (m', [.started s message]) := by
  have low := (List.getElem?_eq_some_iff.1 found).1
  have stream := List.getElem?_eq_getElem (World.lt_of_streamOf? known)
  have first : m.stepAt? i =
      some (⟨m.world, m.threads.set i (t.goto (.drain s .enter 0 :: outer))⟩, []) := by
    simp [Machine.stepAt?, found, Thread.step?, frames, run, Thread.stepFrame?, Thread.stepCommand?,
      known]
  have second : Machine.stepAt? ⟨m.world, m.threads.set i (t.goto (.drain s .enter 0 :: outer))⟩ i =
      some (⟨m.world.after (.setExecuting s true),
        m.threads.set i (t.goto (.drain s .take 0 :: outer))⟩, []) := by
    have idle : (m.world.streams[s]?).elim true (·.executing) = false := by
      rw [World.executingAt, stream] at free
      rw [stream]
      exact free
    simp [Machine.stepAt?, low, Thread.step?, Thread.goto, Thread.stepFrame?, Thread.stepDrain, idle]
  have third : ∃ m', Machine.stepAt? ⟨m.world.after (.setExecuting s true),
      m.threads.set i (t.goto (.drain s .take 0 :: outer))⟩ i =
        some (m', [.started s message]) := by
    have queue' : ((m.world.after (.setExecuting s true)).streams[s]?).elim [] (·.queue) =
        message :: rest := by
      rw [← queue, ← World.queueAt_setExecuting m.world s s true, World.queueAt]
    simp [Machine.stepAt?, low, Thread.step?, Thread.goto, Thread.stepFrame?, Thread.stepDrain,
      queue']
  obtain ⟨m', third⟩ := third
  exact ⟨m', by simp [Machine.stepsAt?, first, second, third]⟩

/-- What holds of a call that has unwound, and of whatever comes after it. -/
structure Interrupted (c : Call) (s : Nat) (panic : Panic) (m₀ : Machine) (trace : List Pace)
    (seen : List Occurrence) (m : Machine) : Prop where
  broken : ∃ firsts last, Broken s panic firsts last m₀ trace seen m
  spans : (m.threads[c.place]?).map (·.spans) = (m₀.threads[c.place]?).map (·.spans)
  /-- Nothing is retried: however the machine goes on, what it starts is what is left, in order. -/
  later : ∀ new m', m.Reaches new m' →
    startedOn s new ++ m'.world.queueAt s = m.world.queueAt s ++ acceptedOn s new
  /-- The next call begins with the message right behind the one that has panicked. -/
  next : ∀ (m' : Machine) i t outer category message rest, m'.world = m.world →
    m'.threads[i]? = some t → t.frames = .command (.runPending category) :: outer →
    t.control = .run → m.world.streamOf? category = some s → m.world.queueAt s = message :: rest →
    ∃ m'', m'.stepsAt? i 3 = some (m'', [.started s message])

theorem Runs.interrupted (run : c.Runs m₀ trace seen m) (begins : c.Begins s m₀)
    (sound : m₀.Sound past) {panic : Panic} (ended : c.Ends m (.unwind panic)) :
    c.Interrupted s panic m₀ trace seen m := by
  obtain ⟨firsts, last, broken⟩ := run.broken begins sound ended
  refine ⟨⟨firsts, last, broken⟩, run.spans begins sound (by simp) ended,
    fun new m' later => later.ledger s, ?_⟩
  intro m' i t outer category message rest world found frames control known queue
  rw [← world] at known queue
  exact takes_first found frames control known (world ▸ broken.free) queue

end Call

end StreamMachine
