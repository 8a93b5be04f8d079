import StreamMachine.Proofs.Reads

/-! A thread in another world, above other frames. As long as the worlds look alike in what the
thread looks at, it does the same there as in its own. -/
namespace StreamMachine

variable {f : Equiv.Perm Nat}

def Instruction.moved (f : Equiv.Perm Nat) (i : Instruction) : Instruction :=
  { i with stream := f i.stream }

def Frame.moved (f : Equiv.Perm Nat) : Frame → Frame
  | .schedule left total => .schedule (left.map f) total
  | .drain s p executed => .drain (f s) p executed
  | .run i phases => .run (i.moved f) phases
  | .phase i p moves => .phase (i.moved f) p moves
  | .logDrain s => .logDrain (f s)
  | frame => frame

def Occurrence.moved (f : Equiv.Perm Nat) : Occurrence → Occurrence
  | .accepted s m => .accepted (f s) m
  | .started s m => .started (f s) m
  | .began s phase status => .began (f s) phase status
  | .returned s phase => .returned (f s) phase
  | .aborted s phase => .aborted (f s) phase
  | .completed s => .completed (f s)
  | .drained s executed => .drained (f s) executed
  | .abandoned s executed => .abandoned (f s) executed
  | o => o

/-- The thread with its streams renamed, on top of other frames. -/
def Thread.onto (f : Equiv.Perm Nat) (outer : List Frame) (t : Thread) : Thread :=
  { t with frames := t.frames.map (Frame.moved f) ++ outer }

def Step.onto (f : Equiv.Perm Nat) (outer : List Frame) (r : Step) : Step :=
  ⟨r.deed.moved f, r.thread.onto f outer, [], r.seen.map (Occurrence.moved f)⟩

def Move.reads (i : Instruction) : Move → Set Resource
  | .lendBlob mode _ => Resource.handle ''
      {h | ∃ actions, i.operand >>= Operand.expectCallback mode i.name = .ok (h, actions)}
  | .bindPublished _ => Resource.published ''
      {name | ∃ h, i.operand >>= Operand.expectLazyReference i.name = .ok (h, name)}
  | _ => ∅

def Action.reads (a : Accessor) : Action → Set Resource
  | .access .describe => insert (.storage a.storage) (Set.range Resource.published)
  | .access _ => {.storage a.storage}
  | .wait gate => {.gate gate}
  | _ => ∅

def Frame.reads (w : World) : Frame → Set Resource
  | .command c => c.reads w
  | .drain s _ _ => {.stream s}
  | .phase i _ (move :: _) => move.reads i
  | .borrow a _ => {.storage a.storage}
  | .action a act => act.reads a
  | .join _ => {.workers}
  | _ => ∅

/-- What a thread looks at in its next step. -/
def Thread.reads (w : World) (t : Thread) : Set Resource :=
  match t.frames, t.control with
  | frame :: _, .run => frame.reads w
  | .logDrain s :: _, .reply _ => {.stream s}
  | _, _ => ∅

theorem Deed.Calm.moved {d : Deed} (hd : d.Calm) : d.moved f = d := by
  cases d <;> first | rfl | exact hd.elim

section

variable {t : Thread} {outer rest : List Frame}

theorem raise_onto (t : Thread) (frames : List Frame) (panic : Panic) :
    (t.onto f outer).raise (frames.map (Frame.moved f) ++ outer) panic =
      (t.raise frames panic).onto f outer := by
  cases panic <;> rfl

theorem stepRun_onto (i : Instruction) (phases : List Phase) :
    (t.onto f outer).stepRun (i.moved f) phases (rest.map (Frame.moved f) ++ outer) =
      (t.stepRun i phases rest).onto f outer := by
  cases phases with
  | nil => rfl
  | cons phase phases =>
    have same : (i.moved f).checkStatus phase = i.checkStatus phase := rfl
    simp only [Thread.stepRun, same]
    split
    · exact raise_onto t rest _
    · rfl

theorem stepUnwind_onto (panic : Panic) (frame : Frame) :
    (t.onto f outer).stepUnwind panic (frame.moved f) (rest.map (Frame.moved f) ++ outer) =
      (t.stepUnwind panic frame rest).onto f outer := by
  cases frame <;> rfl

end

namespace World.Alike

variable {R : Set Resource} {w w' : World} {t : Thread} {outer rest : List Frame}

theorem stepDrain (h : Alike f R w w') {s : Nat} (hs : .stream s ∈ R) (p : DrainPoint) (e : Nat) :
    (t.onto f outer).stepDrain w' (f s) p e (rest.map (Frame.moved f) ++ outer) =
      (t.stepDrain w s p e rest).onto f outer := by
  cases p with
  | enter =>
    simp only [Thread.stepDrain, h.streams hs]
    split <;> rfl
  | take | execute =>
    simp only [Thread.stepDrain, h.streams hs, h.categoryAt]
    split <;> rfl
  | leave => rfl
  | recheck =>
    simp only [Thread.stepDrain, h.streams hs]
    split <;> rfl

theorem stepMove (h : Alike f R w w') {i : Instruction} {move : Move} (reads : move.reads i ⊆ R) :
    (t.onto f outer).stepMove w' (i.moved f) move (rest.map (Frame.moved f) ++ outer) =
      (t.stepMove w i move rest).onto f outer := by
  have stream : (i.moved f).stream = f i.stream := rfl
  cases move with
  | report what query =>
    have same : query.answer (i.moved f) = query.answer i := by cases query <;> rfl
    simp only [Thread.stepMove, same, stream, h.categoryAt]
    split
    · rfl
    · exact raise_onto t rest _
  | panic message => exact raise_onto t rest _
  | drainOwn => rfl
  | issue command => cases command <;> rfl
  | lendBlob mode category =>
    have same : (i.moved f).operand >>= Operand.expectCallback mode (i.moved f).name =
        i.operand >>= Operand.expectCallback mode i.name := rfl
    simp only [Thread.stepMove, same]
    split
    · exact raise_onto t rest _
    next handle actions found =>
      rw [h.binding (reads ⟨handle, ⟨actions, found⟩, rfl⟩)]
      split
      · exact raise_onto t rest _
      · simp only [stream, h.categoryAt, h.deviceAt]
        rfl
  | bindPublished category =>
    have same : (i.moved f).operand >>= Operand.expectLazyReference (i.moved f).name =
        i.operand >>= Operand.expectLazyReference i.name := rfl
    simp only [Thread.stepMove, same]
    split
    · exact raise_onto t rest _
    next handle lazyName found =>
      rw [h.published (reads ⟨lazyName, ⟨handle, found⟩, rfl⟩)]
      split
      · exact raise_onto t rest _
      · rfl

theorem perform (h : Alike f R w w') {a : Accessor} {access : Access}
    (reads : (Action.access access).reads a ⊆ R) (blob : Blob) :
    a.perform w' blob access = a.perform w blob access := by
  cases access with
  | describe =>
    simp only [Accessor.perform, h.publishedCount fun r hr => reads (.inr hr)]
  | _ => rfl

theorem stepAction? (h : Alike f R w w') {a : Accessor} {action : Action}
    (reads : action.reads a ⊆ R) :
    (t.onto f outer).stepAction? w' a action (rest.map (Frame.moved f) ++ outer) =
      (t.stepAction? w a action rest).map (Step.onto f outer) := by
  cases action with
  | access access =>
    have hi : .storage a.storage ∈ R := by
      cases access <;> exact reads (by simp [Action.reads])
    simp only [Thread.stepAction?, h.blob? hi, h.perform reads, Option.map_some]
    congr 1
    split
    · exact raise_onto t rest _
    · split
      · rfl
      · exact raise_onto t rest _
  | panic message => exact congrArg some (raise_onto t rest _)
  | attempt action => rfl
  | step command => rfl
  | thread command => rfl
  | signal gate => rfl
  | wait gate =>
    simp only [Thread.stepAction?, h.gate (reads rfl)]
    split <;> rfl

theorem enqueue (h : Alike f R w w') (s : Nat) (m : Message) :
    (t.onto f outer).submit w' (rest.map (Frame.moved f) ++ outer) (w'.enqueue (f s) m) =
      (t.submit w rest (w.enqueue s m)).onto f outer := by
  simp only [World.enqueue, h.categoryAt]
  split
  · simp only [Thread.submit, h.categoryAt, h.deviceAt]
    rfl
  · rfl

theorem receiveMessage (h : Alike f R w w') (m : Message) :
    (t.onto f outer).submit w' (rest.map (Frame.moved f) ++ outer) (w'.receiveMessage m) =
      (t.submit w rest (w.receiveMessage m)).onto f outer := by
  simp only [World.receiveMessage, h.routes]
  cases w.streamOf? m.descriptor.category with
  | none => rfl
  | some s => exact h.enqueue s m

theorem stepCommand? (h : Alike f R w w') {c : Command} (reads : c.reads w ⊆ R)
    (alone : .workers ∉ c.reads w) (fresh : Nat) :
    (t.onto f outer).stepCommand? w' fresh c (rest.map (Frame.moved f) ++ outer) =
      (t.stepCommand? w 0 c rest).map (Step.onto f outer) := by
  cases c with
  | store command =>
    simp only [Thread.stepCommand?, h.storeCommand? reads]
    split
    · exact congrArg some (raise_onto t rest _)
    · rfl
    next reply deed found =>
      have same : deed.moved f = deed := (World.storeCommand?_calm found).moved
      simp only [Option.map_some, Step.onto, same]
      rfl
  | query command =>
    simp only [Thread.stepCommand?, h.query reads, Option.map_some]
    congr 1
    split
    · exact raise_onto t rest _
    · rfl
  | receive name operand =>
    have looks : (some operand).elim ∅ OperandSpec.reads ⊆ R := reads
    have same := h.message looks name
    simp only [Thread.stepCommand?, same, Option.map_some]
    congr 1
    split
    · exact raise_onto t rest _
    · exact h.receiveMessage _
  | receiveMessage name operand =>
    simp only [Thread.stepCommand?, h.message reads, Option.map_some]
    congr 1
    split
    · exact raise_onto t rest _
    · exact h.receiveMessage _
  | enqueue category name operand =>
    simp only [Thread.stepCommand?, h.message reads, h.routes, Option.map_some]
    congr 1
    split
    · exact raise_onto t rest _
    · cases w.streamOf? category with
      | none => rfl
      | some s => exact h.enqueue s _
  | schedule =>
    obtain ⟨rfl, streams⟩ := h.everyStream reads
    simp [Thread.stepCommand?, streams, Step.onto, Thread.onto, Thread.goto, Frame.moved, Deed.moved]
  | scheduleConcurrently => exact (alone (.inl rfl)).elim
  | runPending category =>
    simp only [Thread.stepCommand?, h.routes, Option.map_some]
    cases w.streamOf? category <;> rfl

theorem stepFrame? (h : Alike f R w w') {frame : Frame} (reads : frame.reads w ⊆ R)
    (alone : .workers ∉ frame.reads w) (fresh : Nat)
    (outcomes : Nat → Option (Except Panic Reply)) :
    (t.onto f outer).stepFrame? w' fresh outcomes (frame.moved f)
        (rest.map (Frame.moved f) ++ outer) =
      (t.stepFrame? w 0 (fun _ => none) frame rest).map (Step.onto f outer) := by
  cases frame with
  | command c => exact h.stepCommand? reads alone fresh
  | schedule left total => cases left <;> rfl
  | drain s p e => exact congrArg some (h.stepDrain (reads rfl) p e)
  | run i phases => exact congrArg some (stepRun_onto i phases)
  | phase i p moves =>
    cases moves with
    | nil => rfl
    | cons move moves =>
      have step : _ = (t.stepMove w i move (.phase i p moves :: rest)).onto f outer :=
        h.stepMove reads
      exact congrArg some step
  | borrow a actions =>
    simp only [Thread.stepFrame?, Frame.moved, h.canAcquire (reads rfl)]
    split <;> rfl
  | callback a actions => cases actions <;> rfl
  | action a action => exact h.stepAction? reads
  | log | logDrain | catching | helper => rfl
  | join threads => exact (alone rfl).elim

theorem stepReply (h : Alike f R w w') (reply : Reply) {frame : Frame}
    (reads : ∀ s, frame = .logDrain s → .stream s ∈ R) :
    (t.onto f outer).stepReply w' reply (frame.moved f) (rest.map (Frame.moved f) ++ outer) =
      (t.stepReply w reply frame rest).onto f outer := by
  cases frame with
  | logDrain s =>
    simp only [Thread.stepReply, Frame.moved, h.streams (reads s rfl), h.categoryAt]
    rfl
  | run i phases => cases phases <;> rfl
  | _ => rfl

/-- A thread does in another world what it does in its own. -/
theorem step? (h : Alike f R w w') (reads : t.reads w ⊆ R) (alone : .workers ∉ t.reads w)
    (live : t.frames ≠ []) (outer : List Frame) (fresh : Nat)
    (outcomes : Nat → Option (Except Panic Reply)) :
    (t.onto f outer).step? w' fresh outcomes =
      (t.step? w 0 fun _ => none).map (Step.onto f outer) := by
  obtain ⟨frames, control, spans⟩ := t
  cases frames with
  | nil => exact (live rfl).elim
  | cons frame rest =>
    cases control with
    | run => exact h.stepFrame? reads alone fresh outcomes
    | reply reply =>
      refine congrArg some (h.stepReply reply ?_)
      rintro s rfl
      exact reads rfl
    | unwind panic => exact congrArg some (stepUnwind_onto panic frame)

end World.Alike

theorem Frame.moved_refl : Frame.moved (Equiv.refl Nat) = id := by
  funext frame
  cases frame with
  | schedule left total => exact congrArg (Frame.schedule · total) (List.map_id left)
  | _ => rfl

theorem Occurrence.moved_refl : Occurrence.moved (Equiv.refl Nat) = id := by
  funext o
  cases o <;> rfl

theorem Resource.moved_refl : Resource.moved (Equiv.refl Nat) = id := by
  funext r
  cases r <;> rfl

theorem Thread.onto_refl (t : Thread) : t.onto (Equiv.refl Nat) [] = t := by
  rw [Thread.onto, Frame.moved_refl, List.map_id, List.append_nil]

theorem World.Alike.refl {w : World} (tidy : w.Tidy) (R : Set Resource) :
    Alike (Equiv.refl Nat) R w w where
  registry := rfl
  profiles _ := rfl
  routes category := by cases w.streamOf? category <;> rfl
  tidy := tidy
  tidy' := tidy
  ordered _ := rfl
  views r _ := by rw [Resource.moved_refl, id]

/-- Only a drain of all streams on threads of their own starts threads. -/
theorem Thread.spawned_eq_nil {w : World} {t : Thread} {r : Step} {fresh : Nat}
    {outcomes : Nat → Option (Except Panic Reply)} (tidy : w.Tidy) (alone : .workers ∉ t.reads w)
    (step : t.step? w fresh outcomes = some r) : r.spawned = [] := by
  have live : t.frames ≠ [] := by
    intro none
    rw [Thread.step?, none] at step
    cases step
  have same := (World.Alike.refl tidy (t.reads w)).step? subset_rfl alone live []
    fresh outcomes
  rw [Thread.onto_refl, step] at same
  obtain ⟨r', -, rfl⟩ := Option.map_eq_some_iff.1 same.symm
  rfl

end StreamMachine
