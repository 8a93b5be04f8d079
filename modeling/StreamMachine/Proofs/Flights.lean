import StreamMachine.Proofs.Guard

/-! The instructions in flight on one thread: those that have started in a chronicle and not ended,
against those on the stack of the thread. In a step one of them starts on top of the others, or the
innermost ends, and the thread is within the spans of all of them. -/
namespace StreamMachine

/-! ### Flights -/

/-- An instruction from its start on: where in the chronicle it has started, on which stream, and
the message it came of. -/
structure Flight where
  start : Nat
  stream : Nat
  message : Message

namespace Flight

def pair (f : Flight) : Nat × Message := (f.stream, f.message)

end Flight

/-- The span of an instruction, given the categories of the streams. -/
def spanOf (place : Nat → StreamCategory) (x : Nat × Message) : Span := ⟨x.2.name, place x.1⟩

namespace Occurrence

/-- The stream of which an instruction ends here, by return or by unwinding. -/
def ends? : Occurrence → Option Nat
  | completed s | abandoned s _ => some s
  | _ => none

/-- Whether no instruction starts or ends here. -/
def Steady : Occurrence → Prop
  | started .. | completed _ | abandoned .. => False
  | _ => True

end Occurrence

/-- What an occurrence makes of the flights. -/
def nextFlights (n : Nat) (flights : List Flight) : Occurrence → List Flight
  | .started s m => flights ++ [⟨n, s, m⟩]
  | .completed s | .abandoned s _ => flights.filter fun f => f.stream ≠ s
  | _ => flights

def flightsFrom (n : Nat) (flights : List Flight) : List Occurrence → List Flight
  | [] => flights
  | o :: seen => flightsFrom (n + 1) (nextFlights n flights o) seen

/-- The instructions that have started and not ended, in the order of their starts. -/
def flights (seen : List Occurrence) : List Flight := flightsFrom 0 [] seen

section Flights

variable {seen new : List Occurrence} {f : Flight} {n : Nat} {old : List Flight}

theorem flightsFrom_append (n : Nat) (old : List Flight) (seen new : List Occurrence) :
    flightsFrom n old (seen ++ new) =
      flightsFrom (n + seen.length) (flightsFrom n old seen) new := by
  induction seen generalizing n old with
  | nil => rfl
  | cons o seen ih =>
    rw [List.cons_append, flightsFrom, ih, flightsFrom, List.length_cons]
    congr 1
    omega

theorem flights_append (seen new : List Occurrence) :
    flights (seen ++ new) = flightsFrom seen.length (flights seen) new := by
  rw [flights, flightsFrom_append, Nat.zero_add, flights]

theorem flights_concat (seen : List Occurrence) (o : Occurrence) :
    flights (seen ++ [o]) = nextFlights seen.length (flights seen) o := by
  rw [flights_append]
  rfl

theorem flightsFrom_steady (steady : ∀ o ∈ new, o.Steady) (n : Nat) (old : List Flight) :
    flightsFrom n old new = old := by
  induction new generalizing n with
  | nil => rfl
  | cons o new ih =>
    obtain ⟨first, rest⟩ := List.forall_mem_cons.1 steady
    have same : nextFlights n old o = old := by
      cases o <;> first | rfl | exact first.elim
    rw [flightsFrom, same]
    exact ih rest (n + 1)

theorem flights_steady (steady : ∀ o ∈ new, o.Steady) : flights (seen ++ new) = flights seen := by
  rw [flights_append, flightsFrom_steady steady]

theorem nextFlights_of_ends {o : Occurrence} {s : Nat} (ends : o.ends? = some s) :
    nextFlights n old o = old.filter fun f => f.stream ≠ s := by
  cases o <;> cases ends <;> rfl

theorem mem_nextFlights {o : Occurrence} (mem : f ∈ nextFlights n old o) :
    f ∈ old ∨ f.start = n := by
  cases o with
  | started s m =>
    obtain mem | mem := List.mem_append.1 mem
    · exact .inl mem
    · rw [List.mem_singleton.1 mem]
      exact .inr rfl
  | completed | abandoned => exact .inl (List.mem_filter.1 mem).1
  | _ => exact .inl mem

/-- A flight is one of the old ones or has started on the way. -/
theorem mem_flightsFrom (mem : f ∈ flightsFrom n old seen) :
    f ∈ old ∨ n ≤ f.start ∧ f.start < n + seen.length := by
  induction seen generalizing n old with
  | nil => exact .inl mem
  | cons o seen ih =>
    rw [List.length_cons]
    obtain mem | later := ih mem
    · obtain mem | here := mem_nextFlights mem
      · exact .inl mem
      · exact .inr (by omega)
    · exact .inr (by omega)

theorem start_lt_of_mem_flights (mem : f ∈ flights seen) : f.start < seen.length := by
  obtain mem | ⟨-, inside⟩ := mem_flightsFrom mem
  · cases mem
  · omega

/-- A flight that has ended is over for good. -/
theorem notMem_flights_of_ends {k j : Nat} {o : Occurrence} (here : seen[k]? = some o)
    (ends : o.ends? = some f.stream) (under : f ∈ flights (seen.take k)) (later : k < j) :
    f ∉ flights (seen.take j) := by
  have inside : k < seen.length := (List.getElem?_eq_some_iff.1 here).1
  have before : seen.take (k + 1) = seen.take k ++ [o] := by
    rw [List.take_add_one, here]
    rfl
  have landed : f ∉ flights (seen.take (k + 1)) := by
    rw [before, flights_concat, nextFlights_of_ends ends]
    intro mem
    simpa using (List.mem_filter.1 mem).2
  have parts := List.take_append_drop (k + 1) (seen.take j)
  rw [List.take_take, Nat.min_eq_left later] at parts
  intro mem
  rw [← parts, flights_append] at mem
  have early := start_lt_of_mem_flights under
  rw [List.length_take] at early
  obtain mem | ⟨late, -⟩ := mem_flightsFrom mem
  · exact landed mem
  · rw [List.length_take] at late
    omega

end Flights

/-! ### Stacks -/

/-- The instructions on a stack, the innermost first. -/
def aboard (frames : List Frame) : List (Nat × Message) :=
  frames.filterMap fun
    | .run i _ => some (i.stream, i.message)
    | _ => none

namespace Thread

/-- No part of the stack stands for a helper thread. -/
def Single (t : Thread) : Prop := ∀ spans, Frame.helper spans ∉ t.frames

/-- An instruction has returned or unwound, which its drain has yet to take note of. -/
def Landing (t : Thread) : Prop := ∃ s e outer, t.frames = .drain s .execute e :: outer

/-- A thread with the instructions in flight on it, the innermost first. -/
inductive Aloft (place : Nat → StreamCategory) (t : Thread) : List (Nat × Message) → Prop
  | cruising (air : ¬t.Landing) : Aloft place t (aboard t.frames)
  | landing (s e : Nat) (m : Message) (outer : List Frame)
      (frames : t.frames = .drain s .execute e :: outer)
      (span : t.spans.head? = some (spanOf place (s, m))) : Aloft place t ((s, m) :: aboard outer)

end Thread

section Stacks

variable {place : Nat → StreamCategory} {t : Thread} {outer added : List Frame} {spans : List Span}
  {crew : List (Nat × Message)}

theorem aboard_append (added outer : List Frame) :
    aboard (added ++ outer) = aboard added ++ aboard outer :=
  List.filterMap_append

theorem aboard_calm (calm : ∀ f ∈ added, f.Calm) : aboard added = [] := by
  rw [aboard, List.filterMap_eq_nil_iff]
  intro f mem
  have := calm f mem
  cases f <;> first | rfl | exact this.elim

theorem aboard_calm_append (calm : ∀ f ∈ added, f.Calm) (outer : List Frame) :
    aboard (added ++ outer) = aboard outer := by
  rw [aboard_append, aboard_calm calm, List.nil_append]

theorem aboard_cons {f : Frame} (calm : f.Calm) (outer : List Frame) :
    aboard (f :: outer) = aboard outer := by
  have single : ∀ g ∈ [f], g.Calm := by simpa using calm
  exact aboard_calm_append single outer

/-- Without helpers the spans are those of the instructions on the stack. -/
theorem Grounded.spans_eq {frames : List Frame} (h : Grounded place frames spans)
    (single : ∀ saved, Frame.helper saved ∉ frames) :
    spans = (aboard frames).map (spanOf place) := by
  induction h with
  | nil => rfl
  | calm hf below ih =>
    rw [aboard_cons hf]
    exact ih fun saved mem => single saved (List.mem_cons_of_mem _ mem)
  | helper below => exact (single _ (List.mem_cons_self ..)).elim
  | run below ih =>
    have rest := ih fun saved mem =>
      single saved (List.mem_cons_of_mem _ (List.mem_cons_of_mem _ mem))
    rw [rest]
    rfl

theorem Grounded.not_landing (h : Grounded place t.frames t.spans) : ¬t.Landing := by
  rintro ⟨s, e, outer, frames⟩
  rw [frames] at h
  exact Grounded.not_drain h

theorem Thread.not_landing_of_cons {f : Frame} {outer : List Frame} (frames : t.frames = f :: outer)
    (other : ∀ s e, f ≠ .drain s .execute e) : ¬t.Landing := by
  rintro ⟨s, e, outer', frames'⟩
  rw [frames] at frames'
  cases frames'
  exact other s e rfl

theorem Thread.not_landing_of_calm {f : Frame} {outer : List Frame} (frames : t.frames = f :: outer)
    (calm : f.Calm) : ¬t.Landing :=
  not_landing_of_cons frames fun s e same => by
    subst same
    exact calm

theorem Thread.not_landing_of_drain {s e : Nat} {p : DrainPoint} {outer : List Frame}
    (frames : t.frames = .drain s p e :: outer) (idle : p ≠ .execute) : ¬t.Landing :=
  not_landing_of_cons frames fun s' e' same => by
    cases same
    exact idle rfl

theorem Thread.not_landing_of_run {i : Instruction} {phases : List Phase} {outer : List Frame}
    (frames : t.frames = .run i phases :: outer) : ¬t.Landing :=
  not_landing_of_cons frames (by simp)

/-- Below an instruction at its end there is a stack like any other. -/
theorem Thread.Shaped.below_landing {s e : Nat} (h : t.Shaped place)
    (frames : t.frames = .drain s .execute e :: outer) : Grounded place outer t.spans.tail := by
  by_cases run : t.control = .run
  · exact ((h.below_loop frames run).1 rfl).elim
  · exact (h.below_ending frames run).2

theorem Thread.Aloft.eq_aboard (h : t.Aloft place crew) (air : ¬t.Landing) :
    crew = aboard t.frames := by
  cases h with
  | cruising => rfl
  | landing s e m outer frames => exact (air ⟨s, e, outer, frames⟩).elim

/-- The spans of a thread are those of the instructions in flight on it. -/
theorem Thread.Aloft.spans_eq (h : t.Aloft place crew) (shaped : t.Shaped place)
    (single : t.Single) : t.spans = crew.map (spanOf place) := by
  cases shaped with
  | host stack =>
    rw [h.eq_aboard stack.not_landing]
    exact stack.spans_eq single
  | loop s e p outer frames run idle stack =>
    rw [h.eq_aboard (t.not_landing_of_drain frames idle), frames]
    exact stack.spans_eq fun saved mem => single saved (frames ▸ List.mem_cons_of_mem _ mem)
  | ending s e span outer spans frames control entered stack =>
    cases h with
    | cruising air => exact (air ⟨s, e, outer, frames⟩).elim
    | landing s' e' m outer' frames' top =>
      rw [frames] at frames'
      cases frames'
      rw [entered] at top ⊢
      cases top
      have rest := stack.spans_eq fun saved mem =>
        single saved (frames ▸ List.mem_cons_of_mem _ mem)
      rw [rest]
      rfl

end Stacks

/-! ### Steps -/

theorem Occurrence.Calm.steady {o : Occurrence} (calm : o.Calm) : o.Steady := by
  cases o <;> trivial

/-- What a step means for the instructions in flight. -/
inductive Step.Carries (place : Nat → StreamCategory) (crew : List (Nat × Message)) (r : Step) :
    Prop
  | steady (quiet : ∀ o ∈ r.seen, o.Steady) (aloft : r.thread.Aloft place crew)
  | start (s : Nat) (m : Message) (seen : r.seen = [.started s m])
      (aloft : r.thread.Aloft place ((s, m) :: crew))
  /-- The innermost one ends, which is the only one of its stream. -/
  | finish (o : Occurrence) (s : Nat) (m : Message) (rest : List (Nat × Message))
      (seen : r.seen = [o]) (ends : o.ends? = some s) (innermost : crew = (s, m) :: rest)
      (only : ∀ x ∈ rest, x.1 ≠ s) (aloft : r.thread.Aloft place rest)

section Turns

variable {w : World} {t : Thread} {r : Step} {crew : List (Nat × Message)}

/-- An instruction that leaves the air is the one that a drain is about to take note of. -/
theorem Thread.Aloft.landing_eq {place : Nat → StreamCategory} {s e : Nat} {p : DrainPoint}
    {outer : List Frame} (h : t.Aloft place crew) (frames : t.frames = .drain s p e :: outer)
    (point : p = .execute) : ∃ m, crew = (s, m) :: aboard outer := by
  subst point
  cases h with
  | cruising air => exact (air ⟨s, e, outer, frames⟩).elim
  | landing s' e' m outer' frames' =>
    rw [frames] at frames'
    cases frames'
    exact ⟨m, rfl⟩

/-- In a step an instruction starts on top of the others, or the innermost ends, or none does. -/
theorem Turn.carries (turn : Turn w t r) (shaped : t.Shaped w.categoryAt)
    (aloft : t.Aloft w.categoryAt crew) (single : t.Single) (single' : r.thread.Single)
    (only : ∀ s e outer, t.frames = .drain s .execute e :: outer → ∀ x ∈ aboard outer, x.1 ≠ s) :
    r.Carries w.categoryAt crew := by
  have steady (air : ¬t.Landing) (air' : ¬r.thread.Landing)
      (same : aboard r.thread.frames = aboard t.frames) (quiet : ∀ o ∈ r.seen, o.Steady) :
      r.Carries w.categoryAt crew := by
    refine .steady quiet ?_
    rw [aloft.eq_aboard air, ← same]
    exact .cruising air'
  cases turn with
  | calm frame outer added frames calm deed stack above spans spawned seen =>
    have below : Grounded w.categoryAt r.thread.frames r.thread.spans := by
      rw [stack, spans]
      exact (shaped.below frames calm).append above
    refine steady (t.not_landing_of_calm frames calm) below.not_landing ?_
      fun o mem => (seen o mem).steady
    rw [frames, stack, aboard_cons calm, aboard_calm_append above]
  | push frame outer s m reply n frames calm known routed =>
    have below : Grounded w.categoryAt (t.give outer reply).frames (t.give outer reply).spans :=
      shaped.below frames calm
    refine steady (t.not_landing_of_calm frames calm) below.not_landing ?_
      (by simp [Thread.notice, Occurrence.Steady])
    rw [frames, aboard_cons calm]
    rfl
  | drain frame outer added s frames calm above =>
    refine steady (t.not_landing_of_calm frames calm) (Thread.not_landing_of_drain rfl (by simp)) ?_
      (by simp)
    rw [frames, aboard_cons calm]
    exact aboard_calm_append above outer
  | enlist frame outer c frames calm =>
    exact (single' t.spans (List.mem_cons_of_mem _ (List.mem_cons_self ..))).elim
  | dismiss x saved outer frames stack spans =>
    exact (single saved (frames ▸ List.mem_cons_self ..)).elim
  | proceed i i' phases phases' outer added seen frames stream message above calm =>
    refine steady (t.not_landing_of_run frames) ?_ ?_ fun o mem => (calm o mem).steady
    · cases added with
      | nil => exact Thread.not_landing_of_run rfl
      | cons f added => exact Thread.not_landing_of_calm rfl (above f (List.mem_cons_self ..))
    · rw [frames]
      show aboard (added ++ .run i' phases' :: outer) = _
      rw [aboard_calm_append above]
      show (i'.stream, i'.message) :: aboard outer = (i.stream, i.message) :: aboard outer
      rw [stream, message]
  | finish x i phases outer seen frames stack control spans calm =>
    obtain ⟨e, rest, spans', rfl, entered, below⟩ := shaped.below_run frames
    refine .steady (fun o mem => (calm o mem).steady) ?_
    rw [aloft.eq_aboard (t.not_landing_of_run frames), frames]
    refine .landing i.stream e i.message rest stack ?_
    rw [spans, entered]
    rfl
  | busy s e outer frames run | rest s e outer frames run =>
    obtain ⟨idle, below⟩ := shaped.below_loop frames run
    refine steady (t.not_landing_of_drain frames idle) ?_ ?_ (by simp [Occurrence.Steady])
    · exact Grounded.not_landing (t := t.give outer (.count e)) below
    · rw [frames]
      rfl
  | seize s e outer frames run | yield s e outer frames run | again s e outer frames run =>
    refine steady (t.not_landing_of_drain frames (by simp))
      (Thread.not_landing_of_drain rfl (by simp)) ?_ (by simp)
    rw [frames]
    rfl
  | dry s e p outer frames run =>
    refine steady (t.not_landing_of_drain frames (shaped.below_loop frames run).1)
      (Thread.not_landing_of_drain rfl (by simp)) ?_ (by simp)
    rw [frames]
    rfl
  | start s e p outer m queue frames run =>
    have air := t.not_landing_of_drain frames (shaped.below_loop frames run).1
    refine .start s m rfl ?_
    rw [aloft.eq_aboard air, frames]
    exact .cruising (Thread.not_landing_of_run rfl)
  | complete s e p outer reply frames control =>
    obtain ⟨point, -⟩ := shaped.below_ending frames (by simp [control])
    obtain ⟨m, innermost⟩ := aloft.landing_eq frames point
    refine .finish _ s m _ rfl rfl innermost (only s e outer (point ▸ frames)) ?_
    exact .cruising (Thread.not_landing_of_drain rfl (by simp))
  | abandon s e p outer panic frames control =>
    obtain ⟨point, below⟩ := shaped.below_ending frames (by simp [control])
    obtain ⟨m, innermost⟩ := aloft.landing_eq frames point
    refine .finish _ s m _ rfl rfl innermost (only s e outer (point ▸ frames)) ?_
    exact .cruising (Grounded.not_landing (t := t.leaveSpan.fail outer panic) below)

/-- The guard of a stream keeps a second instruction of it from starting within the first. -/
theorem Machine.Guarded.only {seen : List Occurrence} (h : Machine.Guarded seen ⟨w, [t]⟩)
    {s e : Nat} {outer : List Frame} (frames : t.frames = .drain s .execute e :: outer) :
    ∀ x ∈ aboard outer, x.1 ≠ s := by
  have below := (h.shaped t (List.mem_singleton_self t)).below_landing frames
  have held := h.held s
  have one := (w.executingAt s).toNat_le
  have own : (Frame.drain s .execute e).holds s = true := by simp [Frame.holds]
  rw [countFrames_cons, frames, List.countP_cons_of_pos own, (below.counts s).1] at held
  have none : outer.countP (Frame.runs s) = 0 := by
    change _ = (w.executingAt s).toNat at held
    omega
  rintro x mem rfl
  obtain ⟨f, inside, runs⟩ := List.mem_filterMap.1 mem
  cases f with
  | run i phases =>
    cases runs
    have := List.countP_eq_zero.1 none _ inside
    simp [Frame.runs] at this
  | _ => cases runs

end Turns

section Chronicle

variable {place : Nat → StreamCategory} {r : Step} {seen : List Occurrence}

/-- When the innermost instruction ends, and no other is of its stream, the last flight is over. -/
theorem flights_of_ends {o : Occurrence} {s : Nat} {m : Message} {rest : List (Nat × Message)}
    (innermost : ((flights seen).map Flight.pair).reverse = (s, m) :: rest)
    (ends : o.ends? = some s) (only : ∀ x ∈ rest, x.1 ≠ s) :
    ∃ f, flights seen = flights (seen ++ [o]) ++ [f] ∧ f.stream = s ∧
      ((flights (seen ++ [o])).map Flight.pair).reverse = rest := by
  obtain none | ⟨before, f, split⟩ := List.eq_nil_or_concat (flights seen)
  · rw [none] at innermost
    cases innermost
  · rw [List.concat_eq_append] at split
    rw [split, List.map_append, List.reverse_append] at innermost
    obtain ⟨first, rest'⟩ := List.cons.inj innermost
    have own : f.stream = s := congrArg Prod.fst first
    have apart : ∀ x ∈ before, x.stream ≠ s := by
      intro x mem
      refine only x.pair ?_
      rw [← rest']
      exact List.mem_reverse.2 (List.mem_map_of_mem mem)
    have left : flights (seen ++ [o]) = before := by
      rw [flights_concat, nextFlights_of_ends ends, split, List.filter_append,
        List.filter_eq_self.2 fun x mem => by simpa using apart x mem]
      simp [own]
    exact ⟨f, by rw [left, split], own, by rw [left]; exact rest'⟩

/-- After a step the flights of the chronicle are again those that the thread has aloft. -/
theorem Step.Carries.aloft (h : r.Carries place ((flights seen).map Flight.pair).reverse) :
    r.thread.Aloft place ((flights (seen ++ r.seen)).map Flight.pair).reverse := by
  cases h with
  | steady quiet aloft => rwa [flights_steady quiet]
  | start s m begun aloft =>
    rw [begun, flights_concat]
    simpa [nextFlights, Flight.pair] using aloft
  | finish o s m rest ended ends innermost only aloft =>
    obtain ⟨f, -, -, left⟩ := flights_of_ends innermost ends only
    rwa [ended, left]

/-- If an instruction ends in a step, it is the innermost one. -/
theorem Step.Carries.ends (h : r.Carries place ((flights seen).map Flight.pair).reverse) {k s : Nat}
    {o : Occurrence} (here : r.seen[k]? = some o) (ending : o.ends? = some s) :
    ∃ f, flights (seen ++ r.seen.take k) = flights (seen ++ r.seen.take (k + 1)) ++ [f] ∧
      f.stream = s := by
  cases h with
  | steady quiet =>
    have := quiet o (List.mem_of_getElem? here)
    cases o <;> first | exact this.elim | cases ending
  | start s' m begun =>
    rw [begun] at here
    cases k with
    | zero =>
      cases here
      cases ending
    | succ k => cases here
  | finish o' s' m rest ended ends innermost only =>
    rw [ended] at here ⊢
    cases k with
    | zero =>
      cases here
      rw [ends] at ending
      cases ending
      obtain ⟨f, last, own, -⟩ := flights_of_ends innermost ends only
      exact ⟨f, by simpa using last, own⟩
    | succ k => cases here

end Chronicle

end StreamMachine
