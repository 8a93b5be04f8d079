import StreamMachine.Proofs.Recovery

/-! No message is stranded. A call that finds the guard taken leaves at once, so the message that its
caller has just submitted is left to whoever holds the guard. That drain looks at the queue once more
after it has given up the guard, and so on every interleaving a queue that holds a message is either
being drained or has not been called for since the message came. -/
namespace StreamMachine

/-- A call to drain a stream is under way on a thread. -/
def Thread.Serves (t : Thread) (s : Nat) : Prop := ∃ p e, .drain s p e ∈ t.frames

/-- A call to drain a stream is under way. -/
def Machine.Serves (m : Machine) (s : Nat) : Prop := ∃ t ∈ m.threads, t.Serves s

/-- A thread is about to enter a call to drain a stream. -/
def Thread.enters (t : Thread) (s : Nat) : Bool :=
  match t.frames with
  | .drain i .enter 0 :: _ => i = s
  | _ => false

namespace Pace

/-- A thread submits a message to a stream here. -/
def pushes (s : Nat) (x : Pace) : Bool := !(acceptedOn s x.step.seen).isEmpty

/-- A call to drain a stream begins here, on this thread or on one that it starts. -/
def calls (s : Nat) (x : Pace) : Bool :=
  (x.thread.drainCall?.isNone && x.step.thread.enters s) || x.step.spawned.any (·.enters s)

end Pace

/-- A message has been submitted to a stream and no call to drain it has begun since; the thread that
has submitted it, or another one in its place, has that call ahead. -/
def Owed (s : Nat) : List Pace → Prop
  | [] => False
  | x :: after => (x.pushes s ∧ ∀ y ∈ after, y.calls s = false) ∨ Owed s after

instance Owed.decidable (s : Nat) : (trace : List Pace) → Decidable (Owed s trace)
  | [] => isFalse id
  | x :: after =>
    have := Owed.decidable s after
    inferInstanceAs (Decidable ((x.pushes s ∧ ∀ y ∈ after, y.calls s = false) ∨ Owed s after))

section

variable {s : Nat} {trace : List Pace} {x : Pace}

theorem owed_of_pushes (pushes : x.pushes s) : Owed s (trace ++ [x]) := by
  induction trace with
  | nil => exact .inl ⟨pushes, by simp⟩
  | cons y trace ih => exact .inr ih

theorem Owed.snoc (h : Owed s trace) (silent : x.calls s = false) : Owed s (trace ++ [x]) := by
  induction trace with
  | nil => exact h.elim
  | cons y trace ih =>
    obtain ⟨pushes, none⟩ | h := h
    · refine .inl ⟨pushes, fun z hz => ?_⟩
      obtain hz | hz := List.mem_append.1 hz
      · exact none z hz
      · rwa [List.mem_singleton.1 hz]
    · exact .inr (ih h)

theorem Thread.Serves.of_enters {t : Thread} (enters : t.enters s) : t.Serves s := by
  rw [Thread.enters] at enters
  split at enters
  next i outer frames =>
    obtain rfl : i = s := by simpa using enters
    exact ⟨.enter, 0, by rw [frames]; exact List.mem_cons_self⟩
  · cases enters

end

section

variable {w : World} {t : Thread} {r : Step} {s : Nat}

/-- A thread leaves a drain only where the queue is empty or the guard is taken, as long as no
instruction panics. -/
theorem Turn.serves (h : Turn w t r) (serves : t.Serves s) (calm : abandons s r.seen = 0)
    (more : w.queueAt s ≠ []) :
    r.thread.Serves s ∨ (w.after r.deed).executingAt s = true := by
  obtain ⟨p, e, mem⟩ := serves
  obtain ⟨frame, outer, frames⟩ := List.exists_cons_of_ne_nil h.frames_ne_nil
  rw [frames] at mem
  obtain rfl | below := List.mem_cons.1 mem
  · cases h with
    | busy i e' outer' frames' run held =>
      rw [frames] at frames'
      cases frames'
      right
      rw [World.after_nothing, World.executingAt]
      cases found : w.streams[s]? with
      | none => simp [World.queueAt, found] at more
      | some stream => simpa [found] using held
    | rest i e' outer' frames' run empty =>
      rw [frames] at frames'
      cases frames'
      exact (more empty).elim
    | abandon i e' p' outer' panic frames' =>
      rw [frames] at frames'
      cases frames'
      simp [abandons] at calm
    | seize _ _ _ frames' | dry _ _ _ _ frames' | yield _ _ _ frames' | again _ _ _ frames'
    | complete _ _ _ _ _ frames' =>
      rw [frames] at frames'
      cases frames'
      exact .inl ⟨_, _, List.mem_cons_self⟩
    | start _ _ _ _ _ _ frames' =>
      rw [frames] at frames'
      cases frames'
      exact .inl ⟨_, _, List.mem_cons_of_mem _ List.mem_cons_self⟩
    | calm frame' _ _ frames' calm' | push frame' _ _ _ _ _ frames' calm'
    | drain frame' _ _ _ frames' calm' | enlist frame' _ _ frames' calm' =>
      rw [frames] at frames'
      cases frames'
      exact calm'.elim
    | dismiss _ _ _ frames' | proceed _ _ _ _ _ _ _ frames' | finish _ _ _ _ _ frames' =>
      rw [frames] at frames'
      cases frames'
  · obtain ⟨added, stack⟩ := h.above frames
    exact .inl ⟨p, e, by rw [stack]; exact List.mem_append_right _ below⟩

theorem Thread.Revised.serves {t' : Thread} (h : t.Revised t') (serves : t.Serves s) :
    t'.Serves s := by
  obtain ⟨f, g, outer, hf, -, frames, frames', -⟩ := h.calm
  obtain ⟨p, e, mem⟩ := serves
  rw [frames] at mem
  obtain rfl | mem := List.mem_cons.1 mem
  · exact hf.elim
  · exact ⟨p, e, by rw [frames']; exact List.mem_cons_of_mem _ mem⟩

end

namespace Machine

variable {m m₀ : Machine} {s : Nat} {past seen : List Occurrence} {trace : List Pace}

/-- A guard that is taken is held by a drain. -/
theorem Guarded.serves (h : m.Guarded seen) (taken : m.world.executingAt s = true) :
    m.Serves s := by
  have held : 0 < countFrames (Frame.holds s) m.threads := by simp [h.held s, taken]
  obtain ⟨f, mem, holds⟩ := List.countP_pos_iff.1 held
  obtain ⟨t, ht, hf⟩ := List.mem_flatMap.1 mem
  cases f with
  | drain i p e =>
    obtain ⟨rfl, -⟩ : i = s ∧ _ := by simpa [Frame.holds] using holds
    exact ⟨t, ht, p, e, hf⟩
  | _ => simp [Frame.holds] at holds

/-- A drain under way elsewhere stays under way. -/
theorem Serves.set {i : Nat} {t x : Thread} {added : List Thread} (h : m.Serves s)
    (found : m.threads[i]? = some t) {world : World}
    (own : t.Serves s → Machine.Serves ⟨world, m.threads.set i x ++ added⟩ s) :
    Machine.Serves ⟨world, m.threads.set i x ++ added⟩ s := by
  obtain ⟨y, hy, serves⟩ := h
  obtain ⟨j, foundj⟩ := List.getElem?_of_mem hy
  by_cases same : j = i
  · subst same
    obtain rfl := Option.some.inj (foundj.symm.trans found)
    exact own serves
  · refine ⟨y, List.mem_append_left _ (List.mem_of_getElem? (i := j) ?_), serves⟩
    rw [List.getElem?_set_ne (Ne.symm same), foundj]

theorem Serves.of_calls {i : Nat} {t : Thread} {r : Step} (found : m.threads[i]? = some t)
    (calls : Pace.calls s ⟨t, r⟩) : (m.stepped i r).Serves s := by
  simp only [Pace.calls, Bool.or_eq_true, Bool.and_eq_true, List.any_eq_true] at calls
  obtain ⟨-, enters⟩ | ⟨x, spawned, enters⟩ := calls
  · exact ⟨r.thread, List.mem_of_getElem? (getElem?_stepped found r), .of_enters enters⟩
  · exact ⟨x, List.mem_append_right _ spawned, .of_enters enters⟩

/-- Threads submit no more than streams accept. -/
theorem Recounts.submitted_le (run : m₀.Recounts trace seen m) (s : Nat) :
    (acceptedOn s (trace.flatMap (·.step.seen))).length ≤ (acceptedOn s seen).length := by
  induction run with
  | refl => exact le_rfl
  | go run i t r found goes ih =>
    simp only [List.flatMap_append, List.flatMap_singleton, acceptedOn_append, List.length_append]
    omega
  | call run command ih => exact ih
  | offer run i message known accepted ih =>
    rw [acceptedOn_append, List.length_append]
    omega
  | revise run i t t' found revised ih => exact ih

/-- A queue that holds a message is being drained, or has yet to be called for. -/
theorem Recounts.serves_or_owed (run : m₀.Recounts trace seen m) (sound : m₀.Sound past)
    (begun : m₀.world.queueAt s ≠ [] → m₀.Serves s)
    (submitted : acceptedOn s seen = acceptedOn s (trace.flatMap (·.step.seen)))
    (calm : abandons s seen = 0) (more : m.world.queueAt s ≠ []) : m.Serves s ∨ Owed s trace := by
  induction run with
  | refl => exact .inl (begun more)
  | @go m trace seen run i t r found goes ih =>
    have turn := goes.turn_stride.1
    by_cases pushes : Pace.pushes s ⟨t, r⟩
    · exact .inr (owed_of_pushes pushes)
    have none : acceptedOn s r.seen = [] := by simpa [Pace.pushes] using pushes
    have ledger := turn.ledger s
    rw [none, List.append_nil] at ledger
    have held : m.world.queueAt s ≠ [] := by
      rw [← ledger]
      exact List.append_ne_nil_of_right_ne_nil _ more
    simp only [List.flatMap_append, List.flatMap_singleton, acceptedOn_append, none,
      List.append_nil] at submitted
    rw [abandons_append] at calm
    obtain serves | owed := ih submitted (by omega) held
    · left
      refine serves.set found fun serves => ?_
      obtain serves | taken := turn.serves serves (by omega) held
      · exact ⟨r.thread, List.mem_of_getElem? (getElem?_stepped found r), serves⟩
      · exact (sound.after (run.go i t r found goes).reaches).guarded.serves taken
    · by_cases calls : Pace.calls s ⟨t, r⟩
      · exact .inl (.of_calls found calls)
      · exact .inr (owed.snoc (by simpa using calls))
  | call run command ih =>
    obtain ⟨t, ht, serves⟩ | owed := ih submitted calm more
    · exact .inl ⟨t, List.mem_append_left _ ht, serves⟩
    · exact .inr owed
  | @offer m trace seen run i message known accepted ih =>
    have le := run.submitted_le s
    rw [← submitted, acceptedOn_append, List.length_append] at le
    have other : i ≠ s := by
      rintro rfl
      simp [acceptedOn, Occurrence.acceptedOn?] at le
    have none : acceptedOn s [.accepted i message] = [] := by
      simp [acceptedOn, Occurrence.acceptedOn?, other]
    rw [acceptedOn_append, none, List.append_nil] at submitted
    rw [abandons_append] at calm
    have more : m.world.queueAt s ≠ [] := by
      simpa [World.queueAt_push known, other] using more
    exact ih submitted (by omega) more
  | @revise m trace seen run i t t' found revised ih =>
    obtain serves | owed := ih submitted calm more
    · left
      have kept : Machine.Serves ⟨m.world, m.threads.set i t' ++ []⟩ s :=
        serves.set found fun serves => ⟨t', List.mem_append_left _
          (List.mem_set (List.getElem?_eq_some_iff.1 found).1 t'), revised.serves serves⟩
      simpa using kept
    · exact .inr owed

/-- A machine at any moment from its creation on, from where threads come and go as they like. Once
no call to drain a stream is under way, and none is ahead that a submission still waits for, the queue
is empty, if it was to begin with or somebody was draining it then. No instruction of the stream may
panic, and all messages come from threads. -/
theorem queue_empty_of_not_owed {config : MachineConfig} {registry : Registry} {w : World}
    (created : World.create config registry = .ok w) (earlier : Reaches ⟨w, []⟩ past m₀)
    (run : m₀.Recounts trace seen m)
    (begun : m₀.world.queueAt s ≠ [] → m₀.Serves s)
    (submitted : acceptedOn s seen = acceptedOn s (trace.flatMap (·.step.seen)))
    (calm : abandons s seen = 0) (settled : ¬ Owed s trace) (idle : ¬ m.Serves s) :
    m.world.queueAt s = [] := by
  have sound : m₀.Sound past := by simpa using (Sound.init created).after earlier
  by_contra more
  obtain serves | owed := run.serves_or_owed sound begun submitted calm more
  · exact idle serves
  · exact settled owed

/-- An instruction of the processor that submits one to the host stream and then calls for it. -/
def handDescriptor : Descriptor :=
  ⟨"hand", 1, .cpu, .fixed .cpu [.issue (.enqueue .host "work" none), .issue (.runPending .host)] []⟩

def handingPair : World :=
  { idlePair with registry :=
      (Registry.empty.insert ⟨"work", 0, .host, .fixed .host [] []⟩).insert handDescriptor }

def handing : Machine := ⟨handingPair.after (.push 1 ⟨handDescriptor, none⟩), []⟩

/-- The worker of the host stream has found its queue empty and holds the guard still while the
processor submits and calls. -/
def handingOrder : List Nat :=
  [0, 1, 1] ++ List.replicate 9 2 ++ List.replicate 16 1 ++ List.replicate 12 2 ++ [0]

def handedOver : List Pace × Machine :=
  trail ⟨handing.world, [.ofCommand .scheduleConcurrently]⟩ handingOrder

/-- The call for the host stream returns 0, and the worker runs what it was for. -/
theorem queue_empty_of_handedOver : ∃ past,
    World.create {} handingPair.registry = .ok handingPair ∧
    Reaches ⟨handingPair, []⟩ past handing ∧
    Recounts handing handedOver.1 (handedOver.1.flatMap (·.step.seen)) handedOver.2 ∧
    handing.world.queueAt 0 = [] ∧ abandons 0 (handedOver.1.flatMap (·.step.seen)) = 0 ∧
    ¬ Owed 0 handedOver.1 ∧ ¬ handedOver.2.Serves 0 ∧
    returnedIn (·.stream = 0) handedOver.1 = [0, 1] ∧ handedOver.2.world.queueAt 0 = [] := by
  have created : World.create {} handingPair.registry = .ok handingPair := rfl
  have earlier : Reaches ⟨handingPair, []⟩ _ handing :=
    Reaches.refl.move (.offer 1 ⟨handDescriptor, none⟩ (by decide) rfl)
  have begun : Recounts handing [] [] ⟨handing.world, [.ofCommand .scheduleConcurrently]⟩ :=
    Recounts.refl.call .scheduleConcurrently
  have run : Recounts handing handedOver.1 (handedOver.1.flatMap (·.step.seen)) handedOver.2 :=
    begun.trail handingOrder
  have calm : abandons 0 (handedOver.1.flatMap (·.step.seen)) = 0 := rfl
  have settled : ¬ Owed 0 handedOver.1 := by decide +kernel
  have idle : ¬ handedOver.2.Serves 0 := by
    have none : handedOver.2.threads.map (·.frames.length) = [0, 0, 0] := rfl
    rintro ⟨t, ht, p, e, mem⟩
    have length := List.mem_map_of_mem (f := (·.frames.length)) ht
    simp only [none, List.mem_cons, or_self, List.not_mem_nil, or_false] at length
    simp [List.length_eq_zero_iff.1 length] at mem
  exact ⟨_, created, earlier, run, rfl, calm, settled, idle, rfl,
    queue_empty_of_not_owed created earlier run (fun more => (more rfl).elim) rfl calm settled idle⟩

end Machine

end StreamMachine
