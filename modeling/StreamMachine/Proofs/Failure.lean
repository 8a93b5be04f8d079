import StreamMachine.Proofs.Sequence
import StreamMachine.Proofs.Share
import StreamMachine.Proofs.Shared

/-! Streams that fail on their own. Each of the workers of a concurrent drain runs its stream to the
end or to the first instruction that panics, whatever the others do; the caller gets the panic of the
first such stream in the order of the configuration. A drain of one stream after another gets the
same and leaves the streams behind it alone. -/
namespace StreamMachine

/-- An interleaving of calls to an idle world is a run of a machine. -/
theorem Machine.Interleaves.reaches {w : World} {c : Command} {m : Machine}
    {trace : List (Nat × List Occurrence)} (run : Interleaves ⟨w, [.ofCommand c]⟩ trace m) :
    ∃ seen, Machine.Reaches ⟨w, []⟩ seen m := by
  induction run with
  | refl => exact ⟨_, Machine.Reaches.refl.move (.call c)⟩
  | step run i last ih =>
    obtain ⟨seen, reached⟩ := ih
    exact ⟨_, reached.move (.step i last)⟩

/-- Whatever has been called, once all threads have ended no guard is taken. -/
theorem Machine.Interleaves.free {w : World} (idle : w.Idle) {c : Command} {m : Machine}
    {trace : List (Nat × List Occurrence)} (run : Interleaves ⟨w, [.ofCommand c]⟩ trace m)
    (ended : ∀ t ∈ m.threads, t.frames = []) (s : Nat) : m.world.executingAt s = false := by
  obtain ⟨seen, reached⟩ := run.reaches
  exact (reached.guarded (.init w idle.free)).free ended s

/-- All workers have stopped, and what they have come to is told. -/
structure Stopped (w : World) (verdict : Nat → Except Panic Reply)
    (trace : List (Nat × List Occurrence)) (m : Machine) (outcome : Except Panic Reply) : Prop where
  stopped : ∀ t ∈ m.threads, t.frames = []
  free : ∀ s, m.world.executingAt s = false
  verdicts : ∀ s < w.streams.length, m.outcome? (1 + s) = some (verdict s)
  /-- Every stream is empty or broken off behind its first instruction that panicked. -/
  drained : ∀ s < w.streams.length, Drained s w m.world (shownBy (1 + s) trace) (verdict s)
  /-- Just when no stream has panicked there is a reply, the number of all instructions that have
  run. -/
  total : ∀ reply, outcome = .ok reply ↔
    (∀ s < w.streams.length, ∃ count, verdict s = .ok count) ∧ reply = .count
      (∑ s ∈ Finset.range w.streams.length, (startedOn s (shownBy (1 + s) trace)).length)
  /-- Otherwise the panic of the first stream that has one is raised again. -/
  payload : ∀ panic, outcome = .error panic ↔
    ∃ p < w.streams.length, FirstToBreak verdict p panic

/-- Worlds that look alike in a stream and in all that its instructions touch. -/
def World.AgreeOn (w : World) (s : Nat) (a b : World) : Prop :=
  a.streams[s]? = b.streams[s]? ∧ ∀ r ∈ w.touchedBy s, a.view r = b.view r

theorem World.AgreeOn.of_views {w a b : World} {s : Nat}
    (views : ∀ r ∈ w.touchedBy s, a.view r = b.view r) : w.AgreeOn s a b :=
  ⟨by simpa [view] using views _ (w.stream_mem_touchedBy s), views⟩

/-- What a drain of one stream after another comes to, beside a concurrent drain of the same
world. -/
structure StoppedEarly (w : World) (verdict : Nat → Except Panic Reply)
    (trace trace' : List (Nat × List Occurrence)) (m m' : Machine)
    (outcome outcome' : Except Panic Reply) : Prop where
  outcome : outcome' = outcome
  free : ∀ s, m'.world.executingAt s = false
  /-- Up to the first stream that panics, this one included, all is as after the concurrent drain. -/
  same : ∀ s < w.streams.length, (∀ i < s, ∃ count, verdict i = .ok count) →
    w.AgreeOn s m'.world m.world
  /-- Behind a stream that panics all is as before. -/
  untouched : ∀ p s panic, verdict p = .error panic → p < s → s < w.streams.length →
    w.AgreeOn s m'.world w
  rest : ∀ r, (∀ s, r ∉ w.touchedBy s) → m.world.view r = w.view r ∧ m'.world.view r = w.view r
  /-- The workers of the streams that have been begun show what they show concurrently. -/
  shown : ∀ p < w.streams.length, ∀ panic, FirstToBreak verdict p panic →
    shownBy 0 trace' = (List.range (p + 1)).flatMap fun s => shownBy (1 + s) trace

section

variable {w : World} {trace trace' : List (Nat × List Occurrence)} {m m' : Machine}
  {outcome outcome' : Except Panic Reply}

theorem seen_moved_refl (seen : List Occurrence) :
    seen.map (Occurrence.moved (Equiv.refl Nat)) = seen := by
  rw [Occurrence.moved_refl, List.map_id]

section

variable {n : Nat → Nat} {k : Nat}
  (spread : Spread (Equiv.refl Nat) w k n (.joined ((List.range k).map w.verdict)) 2 trace m)
  (finishes : ∀ s < k, w.Finishes s (n s) (w.verdict s))

include spread finishes

theorem Spread.drained (idle : w.Idle) (separate : w.Separate) (known : k = w.streams.length)
    {s : Nat} (hs : s < k) : Drained s w m.world (shownBy (1 + s) trace) (w.verdict s) := by
  rw [spread.shown s hs, seen_moved_refl]
  exact ((finishes s hs).drained idle (separate.single s) (known ▸ hs)).congr
    ((spread.world.alike s).streams (w.stream_mem_touchedBy s))

end

end

/-- How the drains of a world come to their end: what its workers come to is settled before they
begin. -/
structure World.Settles (w : World) (verdict : Nat → Except Panic Reply) : Prop where
  concurrent : ∀ trace m outcome,
    Machine.Interleaves ⟨w, [.ofCommand .scheduleConcurrently]⟩ trace m →
    m.outcome? 0 = some outcome → Stopped w verdict trace m outcome
  sequential : ∀ trace m outcome trace' m' outcome',
    Machine.Interleaves ⟨w, [.ofCommand .scheduleConcurrently]⟩ trace m →
    m.outcome? 0 = some outcome →
    Machine.Interleaves ⟨w, [.ofCommand .schedule]⟩ trace' m' → m'.outcome? 0 = some outcome' →
    StoppedEarly w verdict trace trace' m m' outcome outcome'
  /-- Workers that come to an end one by one do so together, and one after another. -/
  terminates : (∀ s < w.streams.length, ∃ n, (w.alone s n).thread.frames = []) →
    Machine.Terminates ⟨w, [.ofCommand .scheduleConcurrently]⟩ ∧
      Machine.Terminates ⟨w, [.ofCommand .schedule]⟩

end StreamMachine
