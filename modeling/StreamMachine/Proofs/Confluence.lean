import StreamMachine.Proofs.Sequence
import StreamMachine.Proofs.Share
import StreamMachine.Proofs.Shared
import StreamMachine.Session.Answer

/-! Streams that share nothing, and none of which panics. All drains of them come to the same: one
after another or side by side, in any interleaving of the workers, in any order of the streams, and
however the messages to different streams have come in between each other. -/
namespace StreamMachine

variable {f : Equiv.Perm Nat}

/-- The same state of two machines, but for the order of the streams. -/
structure World.SameState (f : Equiv.Perm Nat) (a b : World) : Prop where
  streams : ∀ s : Nat, b.streams[f s]? = a.streams[s]?
  storages : ∀ id, b.store.cell? id = a.store.cell? id
  bindings : ∀ handle, b.store.binding? handle = a.store.binding? handle
  catalog : ∀ name, b.store.published? name = a.store.published? name
  views : ∀ r, b.view (r.moved f) = a.view r

theorem World.SameState.of_views {a b : World} (views : ∀ r, b.view (r.moved f) = a.view r) :
    a.SameState f b where
  streams s := by simpa [view, Resource.moved] using views (.stream s)
  storages id := by simpa [view, Resource.moved] using views (.storage id)
  bindings handle := by simpa [view, Resource.moved] using views (.handle handle)
  catalog name := by simpa [view, Resource.moved] using views (.published name)
  views := views

/-- What it is that all drains come to: every stream is empty, and all its messages have run in their
order, those that it has taken in on the way included. -/
structure World.Emptied (w final : World) (shown : Nat → List Occurrence) (total : Nat) : Prop where
  drained : ∀ s < w.streams.length,
    Drained s w final (shown s) (.ok (.count (startedOn s (shown s)).length))
  total : total = ∑ s ∈ Finset.range w.streams.length, (startedOn s (shown s)).length

/-- What every drain of a world comes to: the same state, the same number of instructions, and of
each stream the same occurrences in the same order. `f` tells where its streams are. -/
structure World.Agreed (f : Equiv.Perm Nat) (w : World) (final : World)
    (shown : Nat → List Occurrence) (total : Nat) : Prop where
  sequential : ∀ trace m outcome, Machine.Interleaves ⟨w, [.ofCommand .schedule]⟩ trace m →
    m.outcome? 0 = some outcome → outcome = .ok (.count total) ∧ final.SameState f m.world ∧
      shownBy 0 trace = (List.range w.streams.length).flatMap fun j =>
        (shown (f.symm j)).map (Occurrence.moved f)
  concurrent : ∀ trace m outcome,
    Machine.Interleaves ⟨w, [.ofCommand .scheduleConcurrently]⟩ trace m →
    m.outcome? 0 = some outcome → outcome = .ok (.count total) ∧ final.SameState f m.world ∧
      ∀ j < w.streams.length,
        shownBy (1 + j) trace = (shown (f.symm j)).map (Occurrence.moved f)
  terminates : Machine.Terminates ⟨w, [.ofCommand .schedule]⟩
  terminates_concurrently : Machine.Terminates ⟨w, [.ofCommand .scheduleConcurrently]⟩

/-- The instructions of different streams touch different storages and handles, hand messages to
their own stream only and leave the catalog as it is. -/
structure World.TouchesApart (w : World) : Prop where
  storages : ∀ s s', s ≠ s' → ∀ id, .storage id ∈ w.touchedBy s → .storage id ∉ w.touchedBy s'
  handles : ∀ s s', s ≠ s' → ∀ handle, .handle handle ∈ w.touchedBy s →
    .handle handle ∉ w.touchedBy s'
  own : ∀ s n i m, .accepted i m ∈ (w.alone s n).seen → i = s
  catalog : ∀ s name, .published name ∉ w.changedBy s

/-- Besides, no stream panics or runs for ever. -/
structure World.StoresApart (w : World) : Prop extends w.TouchesApart where
  calm : ∀ s < w.streams.length, ∃ n reply, (w.alone s n).thread.outcome? = some (.ok reply)

/-- The configuration with the streams of the pair in the other order. -/
def pairConfig' : MachineConfig := { streams := [⟨.cpu, 0⟩, ⟨.host, 0⟩] }

def idlePair' : World :=
  ⟨.empty, [{ category := .cpu, device := 0 }, { category := .host, device := 0 }], {}, {}, []⟩

def lentPair' : World := idlePair'.lent

theorem reordered_idlePair : World.Reordered (Equiv.swap 0 1) idlePair idlePair' := by
  have created : World.create {} .empty = .ok idlePair := rfl
  have created' : World.create pairConfig' .empty = .ok idlePair' := rfl
  refine World.reordered_create created created' (fun s => ?_) fun s hs => ?_
  · rcases s with _ | _ | s
    · rfl
    · rfl
    · rw [Equiv.swap_apply_of_ne_of_ne (by omega) (by omega)]
      rfl
  · have : 2 ≤ s := hs
    exact Equiv.swap_apply_of_ne_of_ne (by omega) (by omega)

theorem reordered_lentPair : World.Reordered (Equiv.swap 0 1) lentPair lentPair' :=
  (reordered_idlePair.after (.newBlob "a" ⟨.scalar, .u8, [0]⟩)).after
    (.newBlob "b" ⟨.scalar, .u8, [0]⟩)

/-- Workers that keep to the byte of their stream are apart, whatever streams and gates they look
at. -/
theorem World.touchesApart_of_keeps {w : World} (streams : Nat → Set Nat) (gates : Set String)
    (own : ∀ s, s ∈ streams s)
    (keeps : ∀ s, w.Keeps ⟨streams s, lentBytes s, lentHandles s, gates⟩ w) : w.TouchesApart := by
  have touched (s : Nat) := (keeps s).touchedBy_subset (own s)
  refine ⟨fun s s' other id h h' => ?_, fun s s' other handle h h' => ?_, fun s n i m h => ?_,
    fun s name h => ?_⟩
  · exact lentBytes_apart other id (Share.storage_mem_seen.1 (touched s h))
      (Share.storage_mem_seen.1 (touched s' h'))
  · exact lentHandles_apart other handle (Share.handle_mem_seen.1 (touched s h))
      (Share.handle_mem_seen.1 (touched s' h'))
  · exact (((keeps s).alone (own s) n).quiet i m h).elim
  · simpa [Share.owned] using (keeps s).changedBy_subset (own s) h

/-- The host takes a step of the machine in the middle of its instruction. -/
def hostSteps (command : Command) : List Message :=
  [.lending .host ⟨"a", 0⟩ [.step command], .probe .cpu [] []]

/-- The host schedules. -/
def nestedMessages : List Message := hostSteps .schedule

def nestedOffered : World := lentPair.receiveAll nestedMessages

/-- The host asks about the other stream. -/
def askedOffered : World := lentPair.receiveAll (hostSteps (.query (.isExecuting .cpu)))

/-- The host's callback waits at a gate that the processor's callback signals. -/
def gatedOffered : World := lentPair.receiveAll
  [.lending .host ⟨"a", 0⟩ [.wait "g"], .lending .cpu ⟨"b", 0⟩ [.signal "g"]]

/-- The host's worker may come to all streams, the others to their own. -/
def hostReach (s : Nat) : Set Nat := {i | s = 0 ∨ i = s}

variable {command : Command}

theorem hostSteps_touchesApart (allowed : ∀ p : Share, p.streams = Set.univ → command.Keeps p) :
    (lentPair.receiveAll (hostSteps command)).TouchesApart := by
  have every : hostReach 0 = Set.univ := Set.eq_univ_of_forall fun _ => .inl rfl
  refine World.touchesApart_of_keeps hostReach ∅ (fun s => .inr rfl) ?_
  intro s i reached m hm
  rcases i with _ | _ | i
  · obtain rfl := List.mem_singleton.1 hm
    obtain rfl : s = 0 := reached.elim id Eq.symm
    exact Message.keeps_lending (.inl ⟨rfl, rfl⟩) rfl (.inl ⟨rfl, rfl⟩)
      (List.forall_mem_singleton.2 (allowed _ every))
  · obtain rfl := List.mem_singleton.1 hm
    exact Message.keeps_probe (by simp) (by simp)
  · cases hm

theorem gatedOffered_touchesApart : gatedOffered.TouchesApart := by
  refine World.touchesApart_of_keeps (fun s => {s}) {"g"} (fun s => rfl) ?_
  rintro _ s rfl m hm
  rcases s with _ | _ | s
  · obtain rfl := List.mem_singleton.1 hm
    exact Message.keeps_lending (.inl ⟨rfl, rfl⟩) rfl (.inl ⟨rfl, rfl⟩)
      (List.forall_mem_singleton.2 rfl)
  · obtain rfl := List.mem_singleton.1 hm
    exact Message.keeps_lending (.inr ⟨rfl, rfl⟩) rfl (.inr ⟨rfl, rfl⟩)
      (List.forall_mem_singleton.2 rfl)
  · cases hm

theorem hostSteps_storesApart (allowed : ∀ p : Share, p.streams = Set.univ → command.Keeps p)
    {n k : Nat} {reply reply' : Reply}
    (host : ((lentPair.receiveAll (hostSteps command)).alone 0 n).thread.outcome? = some (.ok reply))
    (processor : ((lentPair.receiveAll (hostSteps command)).alone 1 k).thread.outcome? =
      some (.ok reply')) : (lentPair.receiveAll (hostSteps command)).StoresApart := by
  refine ⟨hostSteps_touchesApart allowed, fun s hs => ?_⟩
  obtain rfl | rfl : s = 0 ∨ s = 1 := by
    have : s < 2 := hs
    omega
  · exact ⟨n, reply, host⟩
  · exact ⟨k, reply', processor⟩

section

set_option maxRecDepth 4000

theorem nestedOffered_storesApart : nestedOffered.StoresApart := by
  have host : (nestedOffered.alone 0 41).thread.outcome? = some (.ok (.count 1)) := rfl
  have processor : (nestedOffered.alone 1 13).thread.outcome? = some (.ok (.count 1)) := rfl
  exact hostSteps_storesApart (fun _ all => all) host processor

theorem askedOffered_storesApart : askedOffered.StoresApart := by
  have host : (askedOffered.alone 0 22).thread.outcome? = some (.ok (.count 1)) := rfl
  have processor : (askedOffered.alone 1 13).thread.outcome? = some (.ok (.count 1)) := rfl
  exact hostSteps_storesApart (fun _ all => all) host processor

end

/-- Different storages are not enough. The schedule in the middle of the instruction runs the other
stream or finds it empty already, and the drains count differently: one after another in this order,
with the other worker first, and one after another in the other order. -/
theorem count_of_nestedOffered : nestedOffered.StoresApart ∧
    World.Reordered (Equiv.swap 0 1) nestedOffered (lentPair'.receiveAll nestedMessages) ∧
    ∃ trace m trace' m' trace'' m'',
      Machine.Interleaves ⟨nestedOffered, [.ofCommand .schedule]⟩ trace m ∧
      Machine.Interleaves ⟨nestedOffered, [.ofCommand .scheduleConcurrently]⟩ trace' m' ∧
      Machine.Interleaves ⟨lentPair'.receiveAll nestedMessages, [.ofCommand .schedule]⟩ trace'' m'' ∧
      m.outcome? 0 = some (.ok (.count 1)) ∧ m'.outcome? 0 = some (.ok (.count 2)) ∧
      m''.outcome? 0 = some (.ok (.count 2)) := by
  have sequential : ∃ r, Machine.follow ⟨nestedOffered, [.ofCommand .schedule]⟩
      (List.replicate 51 0) = some r ∧ r.1.outcome? 0 = some (.ok (.count 1)) := ⟨_, rfl, rfl⟩
  have concurrent : ∃ r, Machine.follow ⟨nestedOffered, [.ofCommand .scheduleConcurrently]⟩
      (0 :: List.replicate 13 2 ++ List.replicate 32 1 ++ [0]) = some r ∧
        r.1.outcome? 0 = some (.ok (.count 2)) := ⟨_, rfl, rfl⟩
  have other : ∃ r, Machine.follow ⟨lentPair'.receiveAll nestedMessages, [.ofCommand .schedule]⟩
      (List.replicate 51 0) = some r ∧ r.1.outcome? 0 = some (.ok (.count 2)) := ⟨_, rfl, rfl⟩
  obtain ⟨⟨m, trace⟩, run, count⟩ := sequential
  obtain ⟨⟨m', trace'⟩, run', count'⟩ := concurrent
  obtain ⟨⟨m'', trace''⟩, run'', count''⟩ := other
  exact ⟨nestedOffered_storesApart, reordered_lentPair.receiveAll lentPair_idle fun _ => rfl,
    trace, m, trace', m', trace'', m'', Machine.Interleaves.refl.follow run,
    Machine.Interleaves.refl.follow run', Machine.Interleaves.refl.follow run'', count, count', count''⟩

/-- Nor may an instruction ask about another stream: the host finds the processor at rest when the
drains come one after another, and can find it at work when they do not. -/
theorem reply_of_askedOffered : askedOffered.StoresApart ∧ ∃ trace m trace' m',
    Machine.Interleaves ⟨askedOffered, [.ofCommand .schedule]⟩ trace m ∧
    Machine.Interleaves ⟨askedOffered, [.ofCommand .scheduleConcurrently]⟩ trace' m' ∧
    m.outcome? 0 = some (.ok (.count 2)) ∧ m'.outcome? 0 = some (.ok (.count 2)) ∧
    (shownBy 0 trace).filterMap Occurrence.logEntry? = [⟨.host, "step", .flag false⟩] ∧
    (shownBy 1 trace').filterMap Occurrence.logEntry? = [⟨.host, "step", .flag true⟩] := by
  have sequential : ∃ r, Machine.follow ⟨askedOffered, [.ofCommand .schedule]⟩
      (List.replicate 41 0) = some r ∧ r.1.outcome? 0 = some (.ok (.count 2)) ∧
        (shownBy 0 r.2).filterMap Occurrence.logEntry? = [⟨.host, "step", .flag false⟩] :=
    ⟨_, rfl, rfl, rfl⟩
  -- The processor takes its guard, and the host runs.
  have concurrent : ∃ r, Machine.follow ⟨askedOffered, [.ofCommand .scheduleConcurrently]⟩
      (0 :: 2 :: List.replicate 22 1 ++ List.replicate 12 2 ++ [0]) = some r ∧
        r.1.outcome? 0 = some (.ok (.count 2)) ∧
        (shownBy 1 r.2).filterMap Occurrence.logEntry? = [⟨.host, "step", .flag true⟩] :=
    ⟨_, rfl, rfl, rfl⟩
  obtain ⟨⟨m, trace⟩, run, count, shown⟩ := sequential
  obtain ⟨⟨m', trace'⟩, run', count', shown'⟩ := concurrent
  exact ⟨askedOffered_storesApart, trace, m, trace', m', Machine.Interleaves.refl.follow run,
    Machine.Interleaves.refl.follow run', count, count', shown, shown'⟩

/-- Nor may callbacks of different streams share a gate. Each stream comes to its end, as waits do
not last for ever, but the host waits in vain unless the processor is drained beside it. -/
theorem replies_of_gatedOffered : gatedOffered.TouchesApart ∧
    (gatedOffered.runCommand (.runPending .host)).outcome = some (.ok (.count 1)) ∧
    (gatedOffered.runCommand (.runPending .cpu)).outcome = some (.ok (.count 1)) ∧
    (gatedOffered.runCommand .schedule).answer.reply = some (.count 2) ∧
    (gatedOffered.runCommand .scheduleConcurrently).answer.reply = some (.count 2) ∧
    (gatedOffered.runCommand .schedule).answer.log =
      [⟨.host, "wait", .flag false⟩, ⟨.cpu, "signal", .ok⟩] ∧
    (gatedOffered.runCommand .scheduleConcurrently).answer.log =
      [⟨.host, "wait", .flag true⟩, ⟨.cpu, "signal", .ok⟩] :=
  ⟨gatedOffered_touchesApart, rfl, rfl, rfl, rfl, rfl, rfl⟩

namespace World

variable {w w' final : World}

/-- Two worlds to which the workers of all streams have come the same way. -/
theorem Composed.sameState {n n' : Nat → Nat} (h : w.Composed (Equiv.refl Nat) n final)
    (h' : w.Composed f n' w') (same : ∀ s < w.streams.length, n' s = n s) :
    final.SameState f w' := by
  refine .of_views fun r => ?_
  have step (s : Nat) (changed : r ∈ w.changedBy s) : n' s = n s := by
    refine same s ?_
    by_contra unknown
    rw [changedBy_eq_empty (by omega)] at changed
    exact changed
  simpa [Resource.moved_refl] using h'.view_eq h step

theorem Visited.complete {n : Nat → Nat} {k q : Nat} {trace : List (Nat × List Occurrence)}
    {outcome : Except Panic Reply} (h : w.Visited f k n q trace w' outcome)
    (calm : ∀ j < k, ∃ reply, w.verdict (f.symm j) = .ok reply) : q = k := by
  obtain ⟨all, -⟩ | ⟨p, panic, rfl, first⟩ := h.last
  · exact all
  · have behind := first.le_of_calm calm
    exact le_antisymm h.within (by omega)

/-- In another order the streams come to what they come to in this one. -/
theorem Reordered.agreed (h : Reordered f w w') (idle : w.Idle) (separate : w.Separate)
    {N n : Nat → Nat} (finishes : ∀ s < w.streams.length, w.Finishes s (N s) (w.verdict s))
    (calm : ∀ s < w.streams.length, ∃ reply, w.verdict s = .ok reply) {total : Nat}
    (sum : joinOutcomes ((List.range w.streams.length).map w.verdict) = .ok total)
    (composed : w.Composed (Equiv.refl Nat) n final) (same : ∀ s < w.streams.length, n s = N s) :
    Agreed f w' final (fun s => (w.alone s (N s)).seen) total := by
  have start := Composed.of_reordered h separate idle
  have known (j : Nat) := h.symm_lt_iff j
  have sum' : joinOutcomes ((List.range w.streams.length).map fun j => w.verdict (f.symm j)) =
      .ok total := by
    refine joinOutcomes_perm ?_ sum
    have perm : (List.range w.streams.length).Perm ((List.range w.streams.length).map f.symm) := by
      refine (List.perm_ext_iff_of_nodup List.nodup_range
        (List.nodup_range.map f.symm.injective)).2 fun s => ?_
      simp only [List.mem_map, List.mem_range]
      constructor
      · exact fun hs => ⟨f s, (h.lt_iff s).2 hs, f.symm_apply_apply s⟩
      · rintro ⟨j, hj, rfl⟩
        exact (known j).2 hj
    simpa [Function.comp_def] using perm.map w.verdict
  have ends (j : Nat) (hj : j < w.streams.length) := finishes (f.symm j) ((known j).2 hj)
  -- Each worker ends after the same number of steps in all drains.
  have way {n' : Nat → Nat} (last : ∀ j < w.streams.length,
      w.Finishes (f.symm j) (n' (f.symm j)) (w.verdict (f.symm j))) (s : Nat)
      (hs : s < w.streams.length) : n' s = N s := by
    have last := last (f s) ((h.lt_iff s).2 hs)
    rw [f.symm_apply_apply] at last
    exact ((finishes s hs).unique last).1
  refine ⟨fun trace m outcome run ended => ?_, fun trace m outcome run ended => ?_,
    Sequential.terminates idle separate start h.length ends,
    Concurrent.terminates separate start h.length ends⟩
  all_goals rw [h.length]
  · obtain ⟨-, n', q, visited⟩ :=
      (Sequential.of_interleaves idle separate start h.length run).of_outcome? ended
    obtain rfl := visited.complete fun j hj => calm (f.symm j) ((known j).2 hj)
    have way := way visited.finishes
    refine ⟨by rw [visited.outcome, sum']; rfl, composed.sameState visited.world fun s hs => ?_, ?_⟩
    · rw [way s hs, same s hs]
    · rw [visited.shown, shownUpTo]
      exact List.flatMap_congr fun j hj => by rw [way _ ((known j).2 (List.mem_range.1 hj))]
  · obtain ⟨n', spread, ended', joined⟩ :=
      (Concurrent.of_interleaves separate start h.length run).of_outcome? ended
    have way := way ended'
    refine ⟨by rw [joined, sum']; rfl, composed.sameState spread.world fun s hs => ?_,
      fun j hj => ?_⟩
    · rw [way s hs, same s hs]
    · rw [spread.shown j hj, way _ ((known j).2 hj)]

/-- Streams that come to their end without a panic agree on what they come to in any order. -/
theorem Reordered.exists_agreed (h : Reordered f w w') (idle : w.Idle) (separate : w.Separate)
    (calm : ∀ s < w.streams.length, ∃ n reply, (w.alone s n).thread.outcome? = some (.ok reply)) :
    ∃ final shown total, w.Emptied final shown total ∧
      Agreed (Equiv.refl Nat) w final shown total ∧ Agreed f w' final shown total := by
  have ends (s : Nat) : ∃ N, s < w.streams.length →
      w.Finishes s N (w.verdict s) ∧ ∃ reply, w.verdict s = .ok reply := by
    by_cases hs : s < w.streams.length
    · obtain ⟨n, reply, outcome⟩ := calm s hs
      obtain ⟨N, finishes⟩ := exists_finishes outcome
      have verdict := finishes.eq_verdict
      rw [verdict] at finishes
      exact ⟨N, fun _ => ⟨finishes, reply, verdict.symm⟩⟩
    · exact ⟨0, fun known => (hs known).elim⟩
  choose N ends using ends
  have finishes (s : Nat) (hs : s < w.streams.length) := (ends s hs).1
  have replies (s : Nat) (hs : s < w.streams.length) := (ends s hs).2
  obtain ⟨total, sum⟩ := joinOutcomes_range replies
  -- The state that all others are compared with is that of some drain in the given order.
  have start := Composed.of_reordered (.refl w) separate idle
  obtain ⟨trace, m, outcome, run, ended⟩ :=
    (Sequential.terminates idle separate start rfl finishes).exists_ended .refl
  obtain ⟨-, n, q, visited⟩ :=
    (Sequential.of_interleaves idle separate start rfl run).of_outcome? ended
  obtain rfl := visited.complete replies
  have same (s : Nat) (hs : s < w.streams.length) : n s = N s :=
    ((finishes s hs).unique (visited.finishes s hs)).1
  have drained (s : Nat) (hs : s < w.streams.length) :
      Drained s w m.world (w.alone s (N s)).seen (w.verdict s) := by
    have alike := (visited.world.alike s).streams (w.stream_mem_touchedBy s)
    rw [same s hs] at alike
    exact ((finishes s hs).drained idle (separate.single s) hs).congr alike
  refine ⟨m.world, fun s => (w.alone s (N s)).seen, total, ⟨fun s hs => ?_, ?_⟩,
    (Reordered.refl w).agreed idle separate finishes replies sum visited.world same,
    h.agreed idle separate finishes replies sum visited.world same⟩
  · obtain ⟨reply, ok⟩ := replies s hs
    have drained := drained s hs
    rw [ok] at drained
    exact drained.count ▸ drained
  · rw [joinOutcomes_drained drained replies] at sum
    exact (Except.ok.inj sum).symm

end World

/-- A machine that has streams at rest is sent messages, and another one, with the same streams in
another order, is sent the same messages to each stream. If the instructions of different streams
share nothing and each stream comes to its end without a panic, all drains of the two agree. -/
theorem agreed_of_reordered {config : MachineConfig} {registry : Registry} {w₀ : World}
    (created : World.create config registry = .ok w₀) {before : List Occurrence} {m₀ : Machine}
    (past : Machine.Reaches ⟨w₀, []⟩ before m₀) (idle : ∀ t ∈ m₀.threads, t.frames = [])
    {w' : World} (reordered : World.Reordered f m₀.world w') {messages messages' : List Message}
    (same : ∀ category, World.ofCategory category messages = World.ofCategory category messages')
    (separate : (m₀.world.receiveAll messages).Separate)
    (calm : ∀ s < (m₀.world.receiveAll messages).streams.length, ∃ n reply,
      ((m₀.world.receiveAll messages).alone s n).thread.outcome? = some (.ok reply)) :
    ∃ final shown total, (m₀.world.receiveAll messages).Emptied final shown total ∧
      World.Agreed (Equiv.refl Nat) (m₀.world.receiveAll messages) final shown total ∧
      World.Agreed f (w'.receiveAll messages') final shown total := by
  have idle := World.idle_of_reaches created past idle
  exact (reordered.receiveAll idle same).exists_agreed (idle.receiveAll messages) separate calm

/-- A byte is written and read again on the host, and another one is written on the processor. -/
def bytesOffered : List Message :=
  [.lending .host ⟨"a", 0⟩ [.access (.setByte 0 1)], .lending .host ⟨"a", 0⟩ [.access .bytes],
    .lending .cpu ⟨"b", 0⟩ [.access (.setByte 0 2)]]

/-- The same with the processor first. -/
def bytesOffered' : List Message :=
  [.lending .cpu ⟨"b", 0⟩ [.access (.setByte 0 2)], .lending .host ⟨"a", 0⟩ [.access (.setByte 0 1)],
    .lending .host ⟨"a", 0⟩ [.access .bytes]]

theorem separate_bytesOffered : (lentPair.receiveAll bytesOffered).Separate := by
  refine separate_lentPair fun m hm => ?_
  obtain rfl | rfl | rfl : m = _ ∨ m = _ ∨ m = _ := by simpa [bytesOffered] using hm
  · exact ⟨_, by simp [Action.Keeps], .inl rfl⟩
  · exact ⟨_, by simp [Action.Keeps], .inl rfl⟩
  · exact ⟨_, by simp [Action.Keeps], .inr rfl⟩

section

set_option maxRecDepth 4000

theorem bytesOffered_calm : ∀ s < 2, ∃ n reply,
    ((lentPair.receiveAll bytesOffered).alone s n).thread.outcome? = some (.ok reply) := by
  have host : ((lentPair.receiveAll bytesOffered).alone 0 38).thread.outcome? =
      some (.ok (.count 2)) := rfl
  have processor : ((lentPair.receiveAll bytesOffered).alone 1 21).thread.outcome? =
      some (.ok (.count 1)) := rfl
  intro s hs
  obtain rfl | rfl : s = 0 ∨ s = 1 := by omega
  · exact ⟨38, _, host⟩
  · exact ⟨21, _, processor⟩

end

/-- Two bytes on two streams, for the configurations with the streams in both orders. -/
theorem agreed_of_bytesOffered : ∃ seen threads seen' threads',
    World.create {} .empty = .ok idlePair ∧ World.create pairConfig' .empty = .ok idlePair' ∧
    Machine.Reaches ⟨idlePair, []⟩ seen ⟨lentPair, threads⟩ ∧ (∀ t ∈ threads, t.frames = []) ∧
    Machine.Reaches ⟨idlePair', []⟩ seen' ⟨lentPair', threads'⟩ ∧
    (∀ t ∈ threads', t.frames = []) ∧
    World.Reordered (Equiv.swap 0 1) lentPair lentPair' ∧
    (lentPair.receiveAll bytesOffered).Separate ∧ ∃ final shown total,
      (lentPair.receiveAll bytesOffered).Emptied final shown total ∧
      World.Agreed (Equiv.refl Nat) (lentPair.receiveAll bytesOffered) final shown total ∧
      World.Agreed (Equiv.swap 0 1) (lentPair'.receiveAll bytesOffered') final shown total := by
  obtain ⟨seen, threads, past, ended⟩ := reaches_lent idlePair
  obtain ⟨seen', threads', past', ended'⟩ := reaches_lent idlePair'
  have created : World.create {} .empty = .ok idlePair := rfl
  have same (category : StreamCategory) :
      World.ofCategory category bytesOffered = World.ofCategory category bytesOffered' := by
    rcases category with _ | _ | _ <;> rfl
  exact ⟨seen, threads, seen', threads', created, rfl, past, ended, past', ended',
    reordered_lentPair, separate_bytesOffered, agreed_of_reordered created past ended
      reordered_lentPair same separate_bytesOffered bytesOffered_calm⟩

end StreamMachine
