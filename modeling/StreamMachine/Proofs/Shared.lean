import StreamMachine.Proofs.Verdict

/-! Where workers that share a world begin. Each touches the stream that it drains, so a worker that
looks at all streams is the only one there is. -/
namespace StreamMachine

variable {f : Equiv.Perm Nat}

theorem Frame.everyStream_subset {w : World} {frame : Frame} (h : .order ∈ frame.reads w) :
    everyStream ⊆ frame.reads w := by
  cases frame with
  | command c =>
    cases c with
    | store c => cases c <;> simp [reads, Command.reads, StoreCommand.reads, World.boundReads,
        World.contentReads, World.peekReads, World.publishedReads] at h
    | query c =>
      cases c with
      | pending | debug => exact subset_rfl
      | isExecuting | stream => simp [reads, Command.reads, QueryCommand.reads] at h
      | lookup | names => exact h.elim
    | receive name operand => cases operand <;> simp [reads, Command.reads, OperandSpec.reads] at h
    | receiveMessage name operand | enqueue category name operand =>
      cases operand with
      | none => exact h.elim
      | some operand => cases operand <;> simp [reads, Command.reads, OperandSpec.reads] at h
    | schedule => exact subset_rfl
    | scheduleConcurrently => exact Set.subset_insert _ _
    | runPending => exact h.elim
  | phase i p moves =>
    cases moves with
    | nil => exact h.elim
    | cons move moves => cases move <;> simp [reads, Move.reads] at h
  | action a action =>
    cases action with
    | access access => cases access <;> simp [reads, Action.reads] at h
    | _ => simp [reads, Action.reads] at h
  | _ => simp [reads] at h

theorem Thread.everyStream_subset {w : World} {t : Thread} (h : .order ∈ t.reads w) :
    everyStream ⊆ t.reads w := by
  obtain ⟨frames, control, spans⟩ := t
  cases frames with
  | nil => exact h.elim
  | cons frame rest =>
    cases control with
    | run => exact Frame.everyStream_subset h
    | reply reply => cases frame <;> simp [reads] at h
    | unwind panic => simp [reads] at h

theorem Deed.order_notMem (w : World) (d : Deed) : .order ∉ d.changes w := by
  cases d <;> simp [changes]

namespace World

variable {w w' : World} {s : Nat}

theorem stream_mem_touchedBy (w : World) (s : Nat) : .stream s ∈ w.touchedBy s := ⟨0, .inl rfl⟩

/-- The worker of a stream that is there begins by taking its guard. -/
theorem Idle.stream_mem_changedBy (idle : w.Idle) (known : s < w.streams.length) :
    .stream s ∈ w.changedBy s := by
  have free := idle.free s
  rw [executingAt, List.getElem?_eq_getElem known] at free
  refine ⟨0, ⟨.setExecuting s true, (Thread.worker s).goto [.drain s .take 0], [], []⟩, ?_, rfl⟩
  simp only [alone, Solo.step?, Thread.step?, Thread.worker, Thread.stepFrame?, Thread.stepDrain,
    List.getElem?_eq_getElem known, Option.elim_some] at free ⊢
  rw [free]
  rfl

/-- Where there is no stream there is nothing to change. -/
theorem changedBy_eq_empty (unknown : w.streams.length ≤ s) : w.changedBy s = ∅ := by
  have none : w.streams[s]? = none := List.getElem?_eq_none unknown
  have first : (w.alone s 0).step? =
      some ⟨.nothing, (Thread.worker s).give [] (.count 0), [], [.drained s 0]⟩ := by
    simp [alone, Solo.step?, Thread.step?, Thread.worker, Thread.stepFrame?, Thread.stepDrain, none]
  have next := Solo.next_of_step? first
  have stuck : (w.alone s 1).step? = .none := by
    rw [alone, next]
    rfl
  refine Set.eq_empty_of_forall_notMem ?_
  rintro r ⟨n, d, step, mem⟩
  cases n with
  | zero =>
    rw [first] at step
    cases step
    exact mem
  | succ n =>
    rw [Nat.add_comm, alone_eq_of_step?_eq_none stuck n, stuck] at step
    cases step

/-- Whoever looks at all streams is alone. -/
theorem Separate.length_le_one (separate : w.Separate) (idle : w.Idle)
    (all : .order ∈ w.touchedBy s) : ∀ i < w.streams.length, i = s := by
  intro i hi
  by_contra other
  obtain ⟨n, looked | ⟨r, -, changed⟩⟩ := all
  · have every := Thread.everyStream_subset looked (.inr ⟨i, rfl⟩)
    exact separate.apart i s other _ (idle.stream_mem_changedBy hi) (w.reads_subset s n every)
  · exact Deed.order_notMem _ _ changed

theorem Reordered.eq_refl (h : Reordered f w w') (separate : w.Separate) (idle : w.Idle)
    (all : .order ∈ w.touchedBy s) : f = Equiv.refl Nat := by
  have one := separate.length_le_one idle all
  refine Equiv.ext fun i => ?_
  by_cases hi : w.streams.length ≤ i
  · exact h.fixed i hi
  · -- The one stream there is can only stay where it is, as all other places stay.
    by_contra moved
    have fixed : w.streams.length ≤ f i := by
      by_contra inside
      have := one i (by omega)
      have := one (f i) (by omega)
      exact moved (by simp; omega)
    exact moved (f.injective (h.fixed (f i) fixed))

theorem Reordered.profiles (h : Reordered f w w') (s : Nat) : w'.profiles[f s]? = w.profiles[s]? := by
  rw [World.profiles, World.profiles, List.getElem?_map, List.getElem?_map, h.streams]

theorem Reordered.view (h : Reordered f w w') (r : Resource) : w'.view (r.moved f) = w.view r := by
  cases r with
  | stream s => exact congrArg View.stream (h.streams s)
  | _ =>
    simp only [World.view, Resource.moved, blobsMade, storagesMade, handlesMade, filed, namesOf,
      h.store, h.directory, h.signals]

theorem Reordered.refl (w : World) : Reordered (Equiv.refl Nat) w w :=
  ⟨rfl, rfl, rfl, rfl, fun _ => rfl, fun _ _ => rfl⟩

theorem Reordered.lt_iff (h : Reordered f w w') (s : Nat) :
    f s < w.streams.length ↔ s < w.streams.length := by
  constructor
  · intro inside
    by_contra outside
    have := h.fixed s (by omega)
    omega
  · intro inside
    by_contra outside
    have := f.injective (h.fixed (f s) (by omega))
    omega

theorem Reordered.symm_lt_iff (h : Reordered f w w') (j : Nat) :
    f.symm j < w.streams.length ↔ j < w.streams.length := by
  rw [← h.lt_iff (f.symm j), f.apply_symm_apply]

theorem Reordered.length (h : Reordered f w w') : w'.streams.length = w.streams.length := by
  have same (j : Nat) : j < w'.streams.length ↔ j < w.streams.length := by
    obtain ⟨s, rfl⟩ := f.surjective j
    rw [h.lt_iff s, ← not_iff_not, not_lt, not_lt, ← List.getElem?_eq_none_iff, h.streams,
      List.getElem?_eq_none_iff]
  have := same w'.streams.length
  have := same w.streams.length
  omega

/-- Workers that have not moved yet share the world that each of them has alone. -/
theorem Composed.of_reordered (h : Reordered f w w') (separate : w.Separate) (idle : w.Idle) :
    Composed f w (fun _ => 0) w' :=
  .init (fun _ => ⟨h.registry, h.profiles, h.streamOf? idle, idle.tidy, (h.idle idle).tidy,
    h.eq_refl separate idle, fun r _ => h.view r⟩) h.view

end World

end StreamMachine
