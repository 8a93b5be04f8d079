import StreamMachine.Proofs.Retry

/-! A schedule is one drain after another, from the first stream to the last. Each drain leaves its
own stream empty, so what a stream holds in the end has come in while the schedule was at a later
one. -/
namespace StreamMachine

theorem split_concat {α : Type} {before after xs : List α} {a x : α}
    (h : xs ++ [x] = before ++ a :: after) : (before = xs ∧ a = x ∧ after = []) ∨
      ∃ rest, after = rest ++ [x] ∧ xs = before ++ a :: rest := by
  obtain rfl | ⟨rest, last, rfl⟩ := List.eq_nil_or_concat after
  · obtain ⟨rfl, same⟩ := List.append_inj' h rfl
    exact .inl ⟨rfl, (List.singleton_inj.1 same).symm, rfl⟩
  · rw [List.concat_eq_append, ← List.cons_append, ← List.append_assoc] at h
    obtain ⟨rfl, same⟩ := List.append_inj' h rfl
    exact .inr ⟨rest, by rw [List.concat_eq_append, List.singleton_inj.1 same], rfl⟩

/-- One of the drains that a schedule calls for, from its beginning to its return. -/
structure Part where
  stream : Nat
  first : Machine
  trace : List Pace
  seen : List Occurrence
  last : Machine
  count : Nat

namespace Call

/-- A thread is about to schedule. -/
structure Schedules (c : Call) (m : Machine) : Prop where
  thread : ∃ t, m.threads[c.place]? = some t ∧ t.control = .run ∧
    t.frames = .command .schedule :: c.outer
  floor : c.floor = m.threads.length

/-- The call that a schedule makes to drain a stream, with the streams that it has left then and what
it has counted. -/
def visiting (c : Call) (left : List Nat) (total : Nat) (m : Machine) : Call :=
  ⟨c.place, .schedule left total :: c.outer, m.threads.length⟩

/-- A schedule has called for a drain, which has returned. -/
structure Visit (c : Call) (left : List Nat) (total : Nat) (p : Part) : Prop where
  begins : (c.visiting left total p.first).Begins p.stream p.first
  run : (c.visiting left total p.first).Runs p.first p.trace p.seen p.last
  ended : (c.visiting left total p.first).Ends p.last (.reply (.count p.count))

/-- A schedule that stands between two drains: those that have returned, the streams that are left,
and what it has counted. -/
inductive Sweep (c : Call) (m₀ : Machine) :
    List Part → List Nat → Nat → List Pace → List Occurrence → Machine → Prop
  | call {t : Thread} {r : Step} (found : m₀.threads[c.place]? = some t) (goes : t.Goes m₀ r)
      (run : t.control = .run) (frames : t.frames = .command .schedule :: c.outer) :
      Sweep c m₀ [] (List.range m₀.world.streams.length) 0 [⟨t, r⟩] r.seen (m₀.stepped c.place r)
  | visit {parts : List Part} {left : List Nat} {total : Nat} {trace : List Pace}
      {seen : List Occurrence} {m : Machine} {p : Part} {t t' : Thread} {r r' : Step}
      (sweep : Sweep c m₀ parts (p.stream :: left) total trace seen m)
      (found : m.threads[c.place]? = some t) (goes : t.Goes m r)
      (first : p.first = m.stepped c.place r) (visit : c.Visit left total p)
      (found' : p.last.threads[c.place]? = some t') (goes' : t'.Goes p.last r') :
      Sweep c m₀ (parts ++ [p]) left (total + p.count)
        (trace ++ [⟨t, r⟩] ++ p.trace ++ [⟨t', r'⟩]) (seen ++ r.seen ++ p.seen ++ r'.seen)
        (p.last.stepped c.place r')

/-- A schedule at any moment: before its first step, between two drains, in the middle of one, back
again, or unwinding. -/
inductive Course (c : Call) (m₀ : Machine) : List Pace → List Occurrence → Machine → Prop
  | calling : Course c m₀ [] [] m₀
  | between {parts : List Part} {left : List Nat} {total : Nat} {trace : List Pace}
      {seen : List Occurrence} {m : Machine} (sweep : Sweep c m₀ parts left total trace seen m) :
      Course c m₀ trace seen m
  | within {parts : List Part} {s : Nat} {left : List Nat} {total : Nat} {trace new : List Pace}
      {seen shown : List Occurrence} {m m' : Machine} {t : Thread} {r : Step}
      (sweep : Sweep c m₀ parts (s :: left) total trace seen m)
      (found : m.threads[c.place]? = some t) (goes : t.Goes m r)
      (begins : (c.visiting left total (m.stepped c.place r)).Begins s (m.stepped c.place r))
      (run : (c.visiting left total (m.stepped c.place r)).Runs (m.stepped c.place r) new shown m') :
      Course c m₀ (trace ++ [⟨t, r⟩] ++ new) (seen ++ r.seen ++ shown) m'
  | returned {parts : List Part} {total : Nat} {trace : List Pace} {seen : List Occurrence}
      {m : Machine} {t : Thread} {r : Step} (sweep : Sweep c m₀ parts [] total trace seen m)
      (found : m.threads[c.place]? = some t) (goes : t.Goes m r) :
      Course c m₀ (trace ++ [⟨t, r⟩]) (seen ++ r.seen) (m.stepped c.place r)
  | unwinding {trace : List Pace} {seen : List Occurrence} {m : Machine} {t : Thread} (panic : Panic)
      (found : m.threads[c.place]? = some t) (control : t.control = .unwind panic)
      (frames : t.frames = c.outer ∨ ∃ left total, t.frames = .schedule left total :: c.outer) :
      Course c m₀ trace seen m

variable {c : Call} {m₀ m m' : Machine} {trace trace' : List Pace} {parts : List Part}
  {left : List Nat} {total : Nat} {past seen seen' : List Occurrence} {p : Part}

theorem Schedules.awaited (h : c.Schedules m₀) : c.Awaited m₀ := by
  obtain ⟨t, found, -⟩ := h.thread
  refine ⟨h.floor ▸ (List.getElem?_eq_some_iff.1 found).1, h.floor.le, fun j x above found' => ?_⟩
  have := (List.getElem?_eq_some_iff.1 found').1
  have := h.floor
  omega

/-- The thread of a schedule between two drains. -/
theorem Sweep.thread (h : c.Sweep m₀ parts left total trace seen m) :
    ∃ t, m.threads[c.place]? = some t ∧ t.control = .run ∧
      t.frames = .schedule left total :: c.outer := by
  cases h with
  | @call t r found goes run frames =>
    refine ⟨r.thread, Machine.getElem?_stepped found r, ?_⟩
    have step := goes.of_frame frames run (by simp)
    cases step
    exact ⟨rfl, rfl⟩
  | visit sweep found goes first visit found' goes' =>
    rename_i r'
    refine ⟨r'.thread, Machine.getElem?_stepped found' r', ?_⟩
    obtain ⟨t, found, frames, control⟩ := visit.ended
    obtain rfl := Option.some.inj (found.symm.trans found')
    obtain rfl := goes'.of_reply frames control
    exact ⟨rfl, rfl⟩

/-- What belongs to a drain that a schedule has called for belongs to the schedule. -/
theorem Visit.runs (h : c.Visit left total p) (inside : c.floor ≤ p.first.threads.length) :
    c.Runs p.first p.trace p.seen p.last := by
  refine h.run.widen fun i t covered => covered.imp (fun own => ⟨own.1, ?_⟩) inside.trans
  exact (Nat.lt_succ_self _).trans own.2

theorem Sweep.runs (h : c.Sweep m₀ parts left total trace seen m)
    (schedules : c.Schedules m₀) : c.Runs m₀ trace seen m := by
  have atop (t : Thread) (f : Frame) (frames : t.frames = f :: c.outer) : c.Covers c.place t :=
    .inl ⟨rfl, by simp [frames]⟩
  induction h with
  | call found goes run frames => exact .one found (atop _ _ frames) goes
  | @visit parts left total trace seen m p t t' r r' sweep found goes first visit found' goes' ih =>
    obtain ⟨y, foundy, -, frames⟩ := sweep.thread
    obtain rfl := Option.some.inj (foundy.symm.trans found)
    obtain ⟨z, foundz, frames', -⟩ := visit.ended
    obtain rfl := Option.some.inj (foundz.symm.trans found')
    have started := ih.trans (.one found (atop _ _ frames) goes)
    rw [← first] at started
    have inside : c.floor ≤ p.first.threads.length := by
      rw [schedules.floor]
      exact started.length_le
    exact (started.trans (visit.runs inside)).trans (.one found' (atop _ _ frames') goes')

/-- In the course of a drain its thread is on top of what the drain stands on, or back there with a
reply or a panic. -/
theorem Begins.above_or_back {d : Call} {s : Nat} (begins : d.Begins s m₀) (sound : m₀.Sound past)
    (run : d.Runs m₀ trace seen m) {t : Thread} (found : m.threads[d.place]? = some t) :
    d.outer.length < t.frames.length ∨ t.frames = d.outer ∧
      ((∃ count, t.control = .reply (.count count)) ∨ ∃ panic, t.control = .unwind panic) := by
  obtain ⟨x, found', front⟩ := run.front begins sound
  obtain rfl := Option.some.inj (found'.symm.trans found)
  cases front with
  | returned firsts frames control => exact .inr ⟨frames, .inl ⟨_, control⟩⟩
  | unwound firsts last panic frames control => exact .inr ⟨frames, .inr ⟨_, control⟩⟩
  | inside firsts inner i phases frames => left; simp [frames]; omega
  | calling _ _ frames | loop _ _ frames | replied _ _ _ frames | broken _ _ _ frames =>
    left
    simp [frames]

theorem Course.next (h : c.Course m₀ trace seen m) (schedules : c.Schedules m₀)
    (sound : m₀.Sound past) (run : c.Runs m₀ trace seen m) {i : Nat} {x : Thread} {r : Step}
    (found : m.threads[i]? = some x) (covered : c.Covers i x) (goes : x.Goes m r) :
    c.Course m₀ (trace ++ [⟨x, r⟩]) (seen ++ r.seen) (m.stepped i r) := by
  have awaited := schedules.awaited.run run
  cases h with
  | calling =>
    obtain ⟨t, own, control, frames⟩ := schedules.thread
    obtain ⟨rfl, rfl, -⟩ := awaited.own own (by simp [Thread.WaitsFor, frames]) found covered goes
    exact .between (.call found goes control frames)
  | @between parts left total _ _ _ sweep =>
    obtain ⟨t, own, control, frames⟩ := sweep.thread
    obtain ⟨rfl, rfl, -⟩ := awaited.own own (by simp [Thread.WaitsFor, frames]) found covered goes
    cases left with
    | nil => exact .returned sweep found goes
    | cons s left =>
      have begins : (c.visiting left total (m.stepped c.place r)).Begins s (m.stepped c.place r) := by
        have step := goes.of_frame frames control (by simp)
        cases step
        exact ⟨⟨_, Machine.getElem?_stepped found _, rfl, .inl rfl⟩, rfl⟩
      simpa using Course.within sweep found goes begins .refl
  | @returned parts total trace seen m t r' sweep own goes' =>
    obtain ⟨y, owny, control, frames⟩ := sweep.thread
    obtain rfl := Option.some.inj (owny.symm.trans own)
    have step := goes'.of_frame frames control (by simp)
    cases step
    have own' := Machine.getElem?_stepped own ⟨.nothing, y.give c.outer (.count total), [], []⟩
    obtain ⟨-, -, under⟩ := awaited.own own' (by simp [Thread.WaitsFor, Thread.give]) found covered goes
    exact (lt_irrefl _ under).elim
  | @unwinding _ _ _ t panic own control frames =>
    obtain ⟨rfl, rfl, under⟩ := awaited.own own (by simp [Thread.WaitsFor, control]) found covered goes
    obtain frames | ⟨left, total, frames⟩ := frames
    · simp [frames] at under
    · obtain rfl := goes.of_unwind frames control
      exact .unwinding panic (Machine.getElem?_stepped found _) rfl (.inl rfl)
  | @within parts s left total trace new seen shown m₁ m t r' sweep own goes' begins part =>
    have before := sweep.runs schedules
    obtain ⟨y, owny, control', frames'⟩ := sweep.thread
    obtain rfl := Option.some.inj (owny.symm.trans own)
    have started := before.trans (.one own (.inl ⟨rfl, by simp [frames']⟩) goes')
    obtain ⟨z, ownz, -⟩ := part.front begins (sound.after started.reaches)
    by_cases same : i = c.place
    · subst same
      obtain rfl := Option.some.inj (ownz.symm.trans found)
      obtain above | ⟨frames, ⟨count, control⟩ | ⟨panic, control⟩⟩ :=
        begins.above_or_back (sound.after started.reaches) part found
      · have next := part.go c.place z r found (.inl ⟨rfl, above⟩) goes
        simpa using Course.within sweep own goes' begins next
      · have visit : c.Visit left total ⟨s, _, new, shown, m, count⟩ :=
          ⟨begins, part, z, found, frames, control⟩
        exact .between (.visit sweep own goes' rfl visit found goes)
      · obtain rfl := goes.of_unwind frames control
        exact .unwinding panic (Machine.getElem?_stepped found _) rfl (.inl rfl)
    · have above : c.floor ≤ i := covered.resolve_left fun h => same h.1
      -- A thread that had been there when the drain began had ended by then.
      have fresh : (m₁.stepped c.place r').threads.length ≤ i := by
        by_contra low
        rw [Nat.not_le] at low
        have there := part.untouched le_rfl low same
        rw [found] at there
        have idle := (schedules.awaited.run started).ended (Machine.getElem?_stepped own r') ?_ above
          there.symm
        · exact goes.frames_ne_nil idle
        · have step := goes'.of_frame frames' control' (by simp)
          cases step
          simp [Thread.WaitsFor, Thread.goto]
      have next := part.go i x r found (.inr fresh) goes
      simpa using Course.within sweep own goes' begins next

theorem Runs.course (run : c.Runs m₀ trace seen m) (schedules : c.Schedules m₀)
    (sound : m₀.Sound past) : c.Course m₀ trace seen m := by
  induction run with
  | refl => exact .calling
  | go run i t r found covered goes ih => exact ih.next schedules sound run found covered goes

/-- With all guards free, a schedule finds them free again when it is not in the middle of a drain. -/
theorem Sweep.free (h : c.Sweep m₀ parts left total trace seen m) (schedules : c.Schedules m₀)
    (sound : m₀.Sound past) (free : ∀ s, m₀.world.executingAt s = false) (s : Nat) :
    m.world.executingAt s = false := by
  have run := h.runs schedules
  obtain ⟨t, own, control, frames⟩ := h.thread
  obtain ⟨t₀, own₀, -, frames₀⟩ := schedules.thread
  have none := (sound.guarded.free_iff s).1 (free s)
  refine ((sound.after run.reaches).guarded.free_iff s).2 fun x hx f hf => ?_
  obtain ⟨j, found⟩ := List.getElem?_of_mem hx
  by_cases same : j = c.place
  · subst same
    obtain rfl := Option.some.inj (own.symm.trans found)
    rw [frames] at hf
    obtain rfl | below := List.mem_cons.1 hf
    · rfl
    · exact none t₀ (List.mem_of_getElem? own₀) f (by rw [frames₀]; exact List.mem_cons_of_mem _ below)
  · by_cases low : j < c.floor
    · rw [run.untouched schedules.floor.le low same] at found
      exact none x (List.mem_of_getElem? found) f hf
    · have idle := (schedules.awaited.run run).ended own (by simp [Thread.WaitsFor, frames])
        (Nat.not_lt.1 low) found
      rw [idle] at hf
      cases hf

/-- What the drains of a schedule have come to, up to a moment between two of them. -/
structure Progress (c : Call) (m₀ : Machine) (parts : List Part) (left : List Nat) (total : Nat)
    (seen : List Occurrence) (m : Machine) : Prop where
  streams : parts.map (·.stream) ++ left = List.range m₀.world.streams.length
  total : total = (parts.map (·.count)).sum
  seen : seen = parts.flatMap (·.seen)
  visits : ∀ p ∈ parts, ∃ left total, c.Visit left total p
  /-- A drain leaves its stream empty; then come the drains behind it. -/
  emptied : ∀ before p after, parts = before ++ p :: after → p.last.world.queueAt p.stream = [] ∧
    (∃ trace, c.Runs m₀ trace (before.flatMap (·.seen)) p.first) ∧
    ∃ trace, c.Runs p.last trace (after.flatMap (·.seen)) m

/-- A drain that a schedule comes to: nothing shows on the way there and back. -/
theorem Sweep.visited {t t' : Thread} {r r' : Step}
    (sweep : c.Sweep m₀ parts (p.stream :: left) total trace seen m) (schedules : c.Schedules m₀)
    (sound : m₀.Sound past) (free : ∀ s, m₀.world.executingAt s = false)
    (found : m.threads[c.place]? = some t) (goes : t.Goes m r) (first : p.first = m.stepped c.place r)
    (visit : c.Visit left total p) (found' : p.last.threads[c.place]? = some t')
    (goes' : t'.Goes p.last r') :
    (r.seen = [] ∧ r'.seen = []) ∧ p.last.world.queueAt p.stream = [] ∧
      c.Runs m [⟨t, r⟩] [] p.first ∧ c.Runs p.first p.trace p.seen p.last ∧
      c.Runs p.last [⟨t', r'⟩] [] (p.last.stepped c.place r') := by
  obtain ⟨y, foundy, control, frames⟩ := sweep.thread
  obtain rfl := Option.some.inj (foundy.symm.trans found)
  obtain ⟨z, foundz, frames', control'⟩ := visit.ended
  obtain rfl := Option.some.inj (foundz.symm.trans found')
  have there := Runs.one (c := c) found (.inl ⟨rfl, by simp [frames]⟩) goes
  have back := Runs.one (c := c) found' (.inl ⟨rfl, by simp [frames', visiting]⟩) goes'
  have before := sweep.runs schedules
  have free := sweep.free schedules sound free p.stream
  obtain rfl := goes'.of_reply frames' control'
  have step := goes.of_frame frames control (by simp)
  cases step
  rw [← first] at there
  have started := before.trans there
  obtain ⟨firsts, -, emptied⟩ := visit.run.emptied visit.begins (sound.after started.reaches)
    (by rw [first]; exact free) visit.ended
  exact ⟨⟨rfl, rfl⟩, emptied.empty, there,
    visit.runs (schedules.floor.le.trans started.length_le), back⟩

theorem Sweep.progress (h : c.Sweep m₀ parts left total trace seen m) (schedules : c.Schedules m₀)
    (sound : m₀.Sound past) (free : ∀ s, m₀.world.executingAt s = false) :
    c.Progress m₀ parts left total seen m := by
  induction h with
  | call found goes run frames =>
    have step := goes.of_frame frames run (by simp)
    cases step
    exact ⟨rfl, rfl, rfl, by simp, by simp⟩
  | @visit parts left total trace seen m p t t' r r' sweep found goes first visit found' goes' ih =>
    obtain ⟨⟨calm, calm'⟩, empty, there, drained, back⟩ :=
      sweep.visited schedules sound free found goes first visit found' goes'
    rw [calm, calm', List.append_nil, List.append_nil]
    refine ⟨by simp [← ih.streams], by simp [ih.total], by simp [ih.seen], ?_, ?_⟩
    · intro q hq
      obtain hq | hq := List.mem_append.1 hq
      · exact ih.visits q hq
      · obtain rfl := List.mem_singleton.1 hq
        exact ⟨_, _, visit⟩
    · intro before q after split
      obtain ⟨rfl, rfl, rfl⟩ | ⟨rest, rfl, rfl⟩ := split_concat split
      · have started := (sweep.runs schedules).trans there
        rw [ih.seen, List.append_nil] at started
        exact ⟨empty, ⟨_, started⟩, _, back⟩
      · obtain ⟨empty, before', trace', after'⟩ := ih.emptied before q rest rfl
        have whole := ((after'.trans there).trans drained).trans back
        rw [List.append_nil, List.append_nil] at whole
        rw [List.flatMap_append, List.flatMap_singleton]
        exact ⟨empty, before', _, whole⟩

/-- What a schedule leaves behind that has returned: the drains that it has called for, one for each
stream, and in each queue no more than has come in behind the drain of that stream. -/
structure Swept (c : Call) (m₀ : Machine) (parts : List Part) (seen : List Occurrence) (m : Machine)
    (reply : Reply) : Prop where
  progress : c.Progress m₀ parts [] (parts.map (·.count)).sum seen m
  reply : reply = .count (parts.map (·.count)).sum
  /-- What a stream has started behind its drain and what it holds it has accepted there. -/
  pending : ∀ before p after, parts = before ++ p :: after →
    startedOn p.stream (after.flatMap (·.seen)) ++ m.world.queueAt p.stream =
      acceptedOn p.stream (after.flatMap (·.seen))
  later : ∀ i, ∀ message ∈ m.world.queueAt i,
    ∃ p ∈ parts, i < p.stream ∧ message ∈ acceptedOn i p.seen
  last : ∀ i, i + 1 = m₀.world.streams.length → m.world.queueAt i = []
  /-- If no drain lets earlier streams have work, all queues are empty. -/
  flushed : (∀ p ∈ parts, ∀ i < p.stream, acceptedOn i p.seen = []) → ∀ i, m.world.queueAt i = []

theorem mem_acceptedOn_flatMap {i : Nat} {message : Message}
    (h : message ∈ acceptedOn i (parts.flatMap (·.seen))) :
    ∃ p ∈ parts, message ∈ acceptedOn i p.seen := by
  obtain ⟨o, ho, accepted⟩ := List.mem_filterMap.1 h
  obtain ⟨p, hp, shown⟩ := List.mem_flatMap.1 ho
  exact ⟨p, hp, List.mem_filterMap.2 ⟨o, shown, accepted⟩⟩

/-- What a queue holds has come in behind the drain of its stream. -/
theorem Progress.later (h : c.Progress m₀ parts [] total seen m)
    (pending : ∀ before p after, parts = before ++ p :: after →
      startedOn p.stream (after.flatMap (·.seen)) ++ m.world.queueAt p.stream =
        acceptedOn p.stream (after.flatMap (·.seen)))
    (length : m.world.streams.length = m₀.world.streams.length) {i : Nat} {message : Message}
    (mem : message ∈ m.world.queueAt i) :
    ∃ p ∈ parts, i < p.stream ∧ message ∈ acceptedOn i p.seen := by
  have streams := h.streams
  rw [List.append_nil] at streams
  have known : i < m₀.world.streams.length := by
    by_contra out
    rw [World.queueAt, List.getElem?_eq_none (by omega)] at mem
    cases mem
  obtain ⟨p, hp, rfl⟩ := List.mem_map.1 (streams ▸ List.mem_range.2 known)
  obtain ⟨before, after, rfl⟩ := List.append_of_mem hp
  have accepted : message ∈ acceptedOn p.stream (after.flatMap (·.seen)) := by
    rw [← pending before p after rfl]
    exact List.mem_append_right _ mem
  obtain ⟨q, hq, accepted⟩ := mem_acceptedOn_flatMap accepted
  -- Streams are drained in their order.
  have sorted : (before.map (·.stream) ++ p.stream :: after.map (·.stream)).Pairwise (· < ·) := by
    rw [← List.map_cons, ← List.map_append, streams]
    exact List.pairwise_lt_range
  have below := (List.pairwise_cons.1 (List.pairwise_append.1 sorted).2.1).1
  exact ⟨q, by simp [hq], below q.stream (List.mem_map_of_mem hq), accepted⟩

theorem Progress.swept (h : c.Progress m₀ parts [] total seen m)
    (length : m.world.streams.length = m₀.world.streams.length) :
    c.Swept m₀ parts seen m (.count total) := by
  have pending : ∀ before p after, parts = before ++ p :: after →
      startedOn p.stream (after.flatMap (·.seen)) ++ m.world.queueAt p.stream =
        acceptedOn p.stream (after.flatMap (·.seen)) := by
    intro before p after split
    obtain ⟨empty, -, trace, run⟩ := h.emptied before p after split
    have ledger := run.reaches.ledger p.stream
    rwa [empty, List.nil_append] at ledger
  refine ⟨h.total ▸ h, congrArg _ h.total, pending, fun i message mem => h.later pending length mem,
    fun i last => ?_, fun none i => ?_⟩
  all_goals refine List.eq_nil_iff_forall_not_mem.2 fun message mem => ?_
  all_goals obtain ⟨p, hp, less, accepted⟩ := h.later pending length mem
  · have known : p.stream ∈ List.range m₀.world.streams.length := by
      rw [← h.streams]
      exact List.mem_append_left _ (List.mem_map_of_mem hp)
    have := List.mem_range.1 known
    omega
  · rw [none p hp i less] at accepted
    cases accepted

theorem Runs.swept (run : c.Runs m₀ trace seen m) (schedules : c.Schedules m₀)
    (sound : m₀.Sound past) (free : ∀ s, m₀.world.executingAt s = false) {reply : Reply}
    (returned : c.Ends m (.reply reply)) : ∃ parts, c.Swept m₀ parts seen m reply := by
  obtain ⟨t, found, frames, control⟩ := returned
  cases run.course schedules sound with
  | calling =>
    obtain ⟨x, own, -, frames'⟩ := schedules.thread
    obtain rfl := Option.some.inj (own.symm.trans found)
    simp [frames] at frames'
  | between sweep =>
    obtain ⟨x, own, -, frames'⟩ := sweep.thread
    obtain rfl := Option.some.inj (own.symm.trans found)
    simp [frames] at frames'
  | unwinding panic own control' =>
    obtain rfl := Option.some.inj (own.symm.trans found)
    simp [control] at control'
  | @within parts s left total trace new seen shown m₁ m x r sweep own goes begins part =>
    obtain ⟨y, owny, -, frames'⟩ := sweep.thread
    obtain rfl := Option.some.inj (owny.symm.trans own)
    have started := (sweep.runs schedules).trans (.one own (.inl ⟨rfl, by simp [frames']⟩) goes)
    obtain above | ⟨back, -⟩ :=
      begins.above_or_back (sound.after started.reaches) part found
    · simp [visiting, frames] at above
    · simp [visiting, frames] at back
  | @returned parts total trace seen m₁ x r sweep own goes =>
    obtain ⟨y, owny, control', frames'⟩ := sweep.thread
    obtain rfl := Option.some.inj (owny.symm.trans own)
    have step := goes.of_frame frames' control' (by simp)
    cases step
    have last := Runs.one (c := c) own (.inl ⟨rfl, by simp [frames']⟩) goes
    obtain rfl := Option.some.inj ((Machine.getElem?_stepped own _).symm.trans found)
    cases control
    have progress := sweep.progress schedules sound free
    refine ⟨parts, Progress.swept ⟨progress.streams, progress.total, ?_, progress.visits, ?_⟩ ?_⟩
    · simpa using progress.seen
    · intro before p after split
      obtain ⟨empty, first, trace, rest⟩ := progress.emptied before p after split
      exact ⟨empty, first, _, by simpa using rest.trans last⟩
    · rw [(run.reaches).length_streams]

end Call

/-- A machine at any moment from its creation on at which no drain is under way, and a schedule that
a thread of it calls for. -/
theorem swept_of_returned {config : MachineConfig} {registry : Registry} {w : World}
    (created : World.create config registry = .ok w) {m₀ m : Machine} {past seen : List Occurrence}
    (earlier : Machine.Reaches ⟨w, []⟩ past m₀) (free : ∀ s, m₀.world.executingAt s = false)
    {c : Call} (schedules : c.Schedules m₀) {trace : List Pace} (run : c.Runs m₀ trace seen m)
    {reply : Reply} (returned : c.Ends m (.reply reply)) :
    ∃ parts, c.Swept m₀ parts seen m reply := by
  have sound : m₀.Sound past := by simpa using (Machine.Sound.init created).after earlier
  exact run.swept schedules sound free returned

def bouncingPair : World :=
  { idlePair with registry := Registry.empty.insert ⟨"work", 0, .host, .fixed .host [] []⟩ }

/-- The processor has an instruction that submits one to the host stream; a schedule goes by the host
stream first. -/
def bouncing : Machine :=
  ⟨bouncingPair.after (.push 1 (.probe .cpu [.issue (.enqueue .host "work" none)] [])),
    [.ofCommand .schedule]⟩

def bouncingOrder : List Nat := List.replicate 40 0

/-- The schedule returns with a message left on the first stream. -/
theorem swept_of_bouncing : ∃ past seen,
    World.create {} bouncingPair.registry = .ok bouncingPair ∧
    Machine.Reaches ⟨bouncingPair, []⟩ past bouncing ∧
    (∀ s, bouncing.world.executingAt s = false) ∧ Call.Schedules ⟨0, [], 1⟩ bouncing ∧
    Call.Runs ⟨0, [], 1⟩ bouncing (bouncing.trail bouncingOrder).1 seen
      (bouncing.trail bouncingOrder).2 ∧
    ((bouncing.trail bouncingOrder).2.world.queueAt 0).length = 1 ∧
    ∃ parts, Call.Swept ⟨0, [], 1⟩ bouncing parts seen (bouncing.trail bouncingOrder).2 (.count 1) := by
  have created : World.create {} bouncingPair.registry = .ok bouncingPair := rfl
  have earlier : Machine.Reaches ⟨bouncingPair, []⟩ _ bouncing :=
    (Machine.Reaches.refl.move (.offer 1 (.probe .cpu [.issue (.enqueue .host "work" none)] [])
      (by decide) rfl)).move (.call .schedule)
  have free (s : Nat) : bouncing.world.executingAt s = false := by
    rcases s with _ | _ | s <;> rfl
  have schedules : Call.Schedules ⟨0, [], 1⟩ bouncing := ⟨⟨_, rfl, rfl, rfl⟩, rfl⟩
  have begun : Call.Runs ⟨0, [], 0 + 1⟩ bouncing [] [] bouncing := .refl
  have run := begun.trail fun i (_ : i ∈ bouncingOrder) => Nat.zero_le i
  have returned : (bouncing.trail bouncingOrder).2.outcome? 0 = some (.ok (.count 1)) := rfl
  exact ⟨_, _, created, earlier, free, schedules, run, rfl,
    swept_of_returned created earlier free schedules run (Retry.ends_of_outcome? returned)⟩

end StreamMachine
