import StreamMachine.Proofs.Streams

/-! What one step of a thread does to the streams and to its own stack. A drain takes and gives up
the guard, starts, completes and abandons instructions; everything else leaves the streams as they
are, or puts one message at the end of one queue. All invariants of streams and stacks are read off
this case list. -/
namespace StreamMachine

theorem bind_ok {ε α β : Type} {x : Except ε α} {f : α → Except ε β} {b : β} :
    x >>= f = .ok b ↔ ∃ a, x = .ok a ∧ f a = .ok b := by
  cases x <;> simp [bind, Except.bind]

theorem mapError_eq_ok {ε ε' α : Type} {f : ε → ε'} {x : Except ε α} {a : α}
    (h : x.mapError f = .ok a) : x = .ok a := by
  cases x <;> cases h
  rfl

/-- Frames that neither drain a stream, nor run an instruction, nor stand for a helper. -/
def Frame.Calm : Frame → Prop
  | .drain .. | .run .. | .helper _ => False
  | _ => True

/-- Occurrences that tell nothing about a queue, a guard or a count. -/
def Occurrence.Calm : Occurrence → Prop
  | .accepted .. | .started .. | .completed _ | .drained .. | .abandoned .. => False
  | _ => True

namespace World

/-- The deeds that commands on the store ask for. -/
inductive Asks (w : World) : Deed → Prop
  | nothing : Asks w .nothing
  | newBlob (name : String) {source : BlobSource} {blob : Blob}
      (made : World.made source = .ok (.ok blob)) : Asks w (.newBlob name blob)
  | newStorage (name : String) {source : BlobSource} {blob : Blob}
      (made : World.made source = .ok (.ok blob)) : Asks w (.newStorage name blob)
  | write {id : StorageId} {words : List UInt32} {old blob : Blob}
      (found : w.store.blob? id = some old) (written : old.writeWords words = .ok blob) :
      Asks w (.setBlob id blob)
  | newHandle (name : String) (id : StorageId) : Asks w (.newHandle name id)
  | nameStorage (name : String) (id : StorageId) : Asks w (.nameStorage name id)
  | rebind (handle : Handle) (id : StorageId) : Asks w (.rebind handle id)
  | publish (name : String) (id : StorageId) : Asks w (.publish name id)
  | withdraw (name : String) : Asks w (.withdraw name)

variable {w : World} {reply : Reply} {d : Deed}

theorem asks_of_poke? {id : StorageId} {words : List UInt32} (h : w.poke? id words = some (reply, d)) :
    w.Asks d := by
  simp only [poke?] at h
  split at h
  · obtain ⟨blob, found, h⟩ := Option.map_eq_some_iff.1 h
    split at h <;> cases h
    next written => exact .write found written
    · exact .nothing
  · cases h

theorem asks_of_storeCommand? {c : StoreCommand} (h : w.storeCommand? c = .ok (some (reply, d))) :
    w.Asks d := by
  cases c with
  | newBlob name source | newStorage name source =>
    simp only [storeCommand?, bind_ok] at h
    obtain ⟨blob, made, h⟩ := h
    cases blob <;> cases h
    · exact .nothing
    · first | exact .newBlob name made | exact .newStorage name made
  | poke blob words | pokeStorage blob words =>
    simp only [storeCommand?, bind_ok] at h
    obtain ⟨id, -, h⟩ := h
    exact asks_of_poke? (Except.ok.inj h)
  | shares | sharesBlob | rebind =>
    simp only [storeCommand?, bind_ok] at h
    obtain ⟨_, -, _, -, h⟩ := h
    cases h
    constructor
  | newHandle | grab | publish =>
    simp only [storeCommand?, bind_ok] at h
    obtain ⟨_, -, h⟩ := h
    cases h
    constructor
  | published | withdraw | isPublished | publishedCount =>
    cases h
    constructor
  | snapshot | peek =>
    simp only [storeCommand?, bind_ok] at h
    obtain ⟨_, -, h⟩ := h
    obtain ⟨_, -, h⟩ := Option.map_eq_some_iff.1 (Except.ok.inj h)
    cases h
    exact .nothing
  | sameContents =>
    simp only [storeCommand?, bind_ok] at h
    obtain ⟨_, -, _, -, h⟩ := h
    obtain ⟨_, -, h⟩ := Option.bind_eq_some_iff.1 (Except.ok.inj h)
    obtain ⟨_, -, h⟩ := Option.map_eq_some_iff.1 h
    cases h
    exact .nothing

theorem storeCommand?_calm {c : StoreCommand} (h : w.storeCommand? c = .ok (some (reply, d))) :
    d.Calm := by
  cases asks_of_storeCommand? h <;> trivial

end World

/-- A step of a thread, by what it does to the streams and to the stack. -/
inductive Turn (w : World) (t : Thread) : Step → Prop
  /-- Replaces a calm frame by calm frames, and may start drains on threads of their own. -/
  | calm {r : Step} (frame : Frame) (outer added : List Frame) (frames : t.frames = frame :: outer)
      (calm : frame.Calm) (deed : r.deed.Calm) (stack : r.thread.frames = added ++ outer)
      (above : ∀ f ∈ added, f.Calm) (spans : r.thread.spans = t.spans)
      (spawned : ∀ x ∈ r.spawned, ∃ s, x = .worker s) (seen : ∀ o ∈ r.seen, o.Calm) : Turn w t r
  /-- Has a message accepted. -/
  | push (frame : Frame) (outer : List Frame) (s : Nat) (m : Message) (reply : Reply) (n : Notice)
      (frames : t.frames = frame :: outer) (calm : frame.Calm) (known : s < w.streams.length)
      (routed : m.descriptor.category = w.categoryAt s) :
      Turn w t ⟨.push s m, t.give outer reply, [], [t.notice n, .accepted s m]⟩
  /-- Calls for a drain. -/
  | drain (frame : Frame) (outer added : List Frame) (s : Nat) (frames : t.frames = frame :: outer)
      (calm : frame.Calm) (above : ∀ f ∈ added, f.Calm) :
      Turn w t ⟨.nothing, t.goto (.drain s .enter 0 :: (added ++ outer)), [], []⟩
  /-- Goes on as a helper. -/
  | enlist (frame : Frame) (outer : List Frame) (c : Command) (frames : t.frames = frame :: outer)
      (calm : frame.Calm) :
      Turn w t ⟨.nothing, (t.setSpans []).goto (.command c :: .helper t.spans :: .catching :: outer),
        [], []⟩
  /-- Is no longer a helper. -/
  | dismiss (x : Thread) (saved : List Span) (outer : List Frame)
      (frames : t.frames = .helper saved :: outer) (stack : x.frames = outer)
      (spans : x.spans = saved) : Turn w t ⟨.nothing, x, [], []⟩
  /-- Goes on with an instruction. -/
  | proceed (i i' : Instruction) (phases phases' : List Phase) (outer added : List Frame)
      (seen : List Occurrence) (frames : t.frames = .run i phases :: outer)
      (stream : i'.stream = i.stream) (message : i'.message = i.message)
      (above : ∀ f ∈ added, f.Calm) (calm : ∀ o ∈ seen, o.Calm) :
      Turn w t ⟨.nothing, t.goto (added ++ .run i' phases' :: outer), [], seen⟩
  /-- Is done with an instruction, one way or the other. -/
  | finish (x : Thread) (i : Instruction) (phases : List Phase) (outer : List Frame)
      (seen : List Occurrence) (frames : t.frames = .run i phases :: outer)
      (stack : x.frames = outer) (control : x.control ≠ .run) (spans : x.spans = t.spans)
      (calm : ∀ o ∈ seen, o.Calm) : Turn w t ⟨.nothing, x, [], seen⟩
  /-- Finds the guard taken. -/
  | busy (s e : Nat) (outer : List Frame) (frames : t.frames = .drain s .enter e :: outer)
      (run : t.control = .run) (held : (w.streams[s]?).elim true (·.executing) = true) :
      Turn w t ⟨.nothing, t.give outer (.count e), [], [.drained s e]⟩
  | seize (s e : Nat) (outer : List Frame) (frames : t.frames = .drain s .enter e :: outer)
      (run : t.control = .run) (free : (w.streams[s]?).elim true (·.executing) = false) :
      Turn w t ⟨.setExecuting s true, t.goto (.drain s .take e :: outer), [], []⟩
  | start (s e : Nat) (p : DrainPoint) (outer : List Frame) (m : Message) (queue : List Message)
      (frames : t.frames = .drain s p e :: outer) (run : t.control = .run)
      (point : p = .take ∨ p = .execute) (first : w.queueAt s = m :: queue) :
      Turn w t ⟨.pop s, (t.enterSpan ⟨m.name, w.categoryAt s⟩).goto
        (.run ⟨m, s, .created⟩ [.infer, .compute] :: .drain s .execute e :: outer), [],
        [.started s m]⟩
  | dry (s e : Nat) (p : DrainPoint) (outer : List Frame)
      (frames : t.frames = .drain s p e :: outer) (run : t.control = .run)
      (point : p = .take ∨ p = .execute) (empty : w.queueAt s = []) :
      Turn w t ⟨.nothing, t.goto (.drain s .leave e :: outer), [], []⟩
  | yield (s e : Nat) (outer : List Frame) (frames : t.frames = .drain s .leave e :: outer)
      (run : t.control = .run) :
      Turn w t ⟨.setExecuting s false, t.goto (.drain s .recheck e :: outer), [], []⟩
  | rest (s e : Nat) (outer : List Frame) (frames : t.frames = .drain s .recheck e :: outer)
      (run : t.control = .run) (empty : w.queueAt s = []) :
      Turn w t ⟨.nothing, t.give outer (.count e), [], [.drained s e]⟩
  | again (s e : Nat) (outer : List Frame) (frames : t.frames = .drain s .recheck e :: outer)
      (run : t.control = .run) (more : w.queueAt s ≠ []) :
      Turn w t ⟨.nothing, t.goto (.drain s .enter e :: outer), [], []⟩
  | complete (s e : Nat) (p : DrainPoint) (outer : List Frame) (reply : Reply)
      (frames : t.frames = .drain s p e :: outer) (control : t.control = .reply reply) :
      Turn w t ⟨.complete s, t.leaveSpan.goto (.drain s .take (e + 1) :: outer), [],
        [.completed s]⟩
  | abandon (s e : Nat) (p : DrainPoint) (outer : List Frame) (panic : Panic)
      (frames : t.frames = .drain s p e :: outer) (control : t.control = .unwind panic) :
      Turn w t ⟨.setExecuting s false, t.leaveSpan.fail outer panic, [], [.abandoned s e]⟩

namespace Turn

variable {w : World} {t : Thread} {outer : List Frame}

/-- A calm frame is left with a reply or a panic, and no more than a deed that is calm. -/
theorem of_return {frame : Frame} {d : Deed} {x : Thread} {seen : List Occurrence}
    (frames : t.frames = frame :: outer) (calm : frame.Calm) (deed : d.Calm)
    (stack : x.frames = outer) (spans : x.spans = t.spans) (hs : ∀ o ∈ seen, o.Calm) :
    Turn w t ⟨d, x, [], seen⟩ :=
  .calm frame outer [] frames calm deed (by simpa using stack) (by simp) spans (by simp) hs

/-- A calm frame gives way to calm frames. -/
theorem of_goto {frame : Frame} {d : Deed} (added : List Frame) {seen : List Occurrence}
    (frames : t.frames = frame :: outer) (calm : frame.Calm) (deed : d.Calm)
    (above : ∀ f ∈ added, f.Calm) (hs : ∀ o ∈ seen, o.Calm) :
    Turn w t ⟨d, t.goto (added ++ outer), [], seen⟩ :=
  .calm frame outer added frames calm deed rfl above rfl (by simp) hs

theorem raise_seen_calm (t : Thread) (frames : List Frame) (panic : Panic) :
    ∀ o ∈ (t.raise frames panic).seen, o.Calm := by
  cases panic <;> simp [Thread.raise, Thread.notice, Occurrence.Calm]

theorem of_raise {frame : Frame} (added : List Frame) {panic : Panic}
    (frames : t.frames = frame :: outer) (calm : frame.Calm) (above : ∀ f ∈ added, f.Calm) :
    Turn w t (t.raise (added ++ outer) panic) :=
  .calm frame outer added frames calm trivial rfl above rfl (by simp [Thread.raise])
    (raise_seen_calm t _ panic)

theorem of_drain (s e : Nat) (p : DrainPoint) (frames : t.frames = .drain s p e :: outer)
    (run : t.control = .run) : Turn w t (t.stepDrain w s p e outer) := by
  cases p with
  | enter =>
    simp only [Thread.stepDrain]
    split
    next held => exact .busy s e outer frames run held
    next free => exact .seize s e outer frames run (by simpa using free)
  | take | execute =>
    simp only [Thread.stepDrain]
    split
    next empty => exact .dry s e _ outer frames run (by simp) empty
    next m queue first => exact .start s e _ outer m queue frames run (by simp) first
  | leave => exact .yield s e outer frames run
  | recheck =>
    simp only [Thread.stepDrain]
    split
    next empty =>
      exact .rest s e outer frames run (by
        cases h : w.streams[s]? <;> simp_all [World.queueAt])
    next more =>
      exact .again s e outer frames run (by
        cases h : w.streams[s]? <;> simp_all [World.queueAt])

theorem of_run (i : Instruction) (phases : List Phase) (frames : t.frames = .run i phases :: outer) :
    Turn w t (t.stepRun i phases outer) := by
  cases phases with
  | nil => exact .finish _ i [] outer [] frames rfl (by simp [Thread.give]) rfl (by simp)
  | cons phase phases =>
    simp only [Thread.stepRun]
    split
    · exact .finish _ i _ outer _ frames rfl (by simp [Thread.fail]) rfl
        (raise_seen_calm t outer (.violation _))
    · exact .proceed i i _ _ outer [.phase i phase _] _ frames rfl rfl (by simp [Frame.Calm])
        (by simp [Occurrence.Calm])

/-- Moves leave the phase they belong to on the stack, with the moves behind them. -/
theorem of_move {i : Instruction} {phase : Phase} {move : Move} {moves : List Move}
    (frames : t.frames = .phase i phase (move :: moves) :: outer) :
    Turn w t (t.stepMove w i move (.phase i phase moves :: outer)) := by
  have calm : (Frame.phase i phase (move :: moves)).Calm := trivial
  cases move with
  | report what query =>
    simp only [Thread.stepMove]
    split
    · exact of_goto [.phase i phase moves] frames calm trivial (by simp [Frame.Calm])
        (by simp [Occurrence.Calm])
    · exact of_raise [.phase i phase moves] frames calm (by simp [Frame.Calm])
  | panic message => exact of_raise [.phase i phase moves] frames calm (by simp [Frame.Calm])
  | drainOwn =>
    exact .drain _ outer [.logDrain i.stream, .phase i phase moves] i.stream frames calm
      (by simp [Frame.Calm])
  | issue command =>
    exact of_goto [.command command, .phase i phase moves] frames calm trivial (by simp [Frame.Calm])
      (by simp)
  | lendBlob mode bound =>
    simp only [Thread.stepMove]
    split
    · exact of_raise [.phase i phase moves] frames calm (by simp [Frame.Calm])
    · split
      · exact of_raise [.phase i phase moves] frames calm (by simp [Frame.Calm])
      · exact of_goto [.borrow _ _, .phase i phase moves] frames calm trivial (by simp [Frame.Calm])
          (by simp [Thread.notice, Occurrence.Calm])
  | bindPublished bound =>
    simp only [Thread.stepMove]
    split
    · exact of_raise [.phase i phase moves] frames calm (by simp [Frame.Calm])
    · split
      · exact of_raise [.phase i phase moves] frames calm (by simp [Frame.Calm])
      · exact of_goto [.phase i phase moves] frames calm trivial (by simp [Frame.Calm])
          (by simp [Thread.notice, Occurrence.Calm])

theorem of_action {a : Accessor} {action : Action} {r : Step}
    (frames : t.frames = .action a action :: outer) (h : t.stepAction? w a action outer = some r) :
    Turn w t r := by
  have calm : (Frame.action a action).Calm := trivial
  cases action with
  | access access =>
    simp only [Thread.stepAction?, Option.some.injEq] at h
    subst h
    split
    · exact of_raise [] frames calm (by simp)
    · split
      · exact of_return frames calm trivial rfl rfl (by simp)
      · exact of_raise [] frames calm (by simp)
  | panic message => cases h; exact of_raise [] frames calm (by simp)
  | attempt action =>
    cases h
    exact of_goto [.action a action, .catching] frames calm trivial (by simp [Frame.Calm]) (by simp)
  | step command =>
    cases h
    exact of_goto [.command command] frames calm trivial (by simp [Frame.Calm]) (by simp)
  | thread command => cases h; exact .enlist _ outer command frames calm
  | signal gate => cases h; exact of_return frames calm trivial rfl rfl (by simp)
  | wait gate =>
    simp only [Thread.stepAction?] at h
    split at h <;> cases h
    exact of_return frames calm trivial rfl rfl (by simp)

theorem of_enqueue {frame : Frame} (frames : t.frames = frame :: outer) (calm : frame.Calm)
    {s : Nat} (known : s < w.streams.length) (m : Message) :
    Turn w t (t.submit w outer (w.enqueue s m)) := by
  simp only [World.enqueue]
  split
  next routed => exact .push frame outer s m _ _ frames calm known routed
  · exact of_return frames calm trivial rfl rfl (by simp)

theorem of_receive {frame : Frame} (frames : t.frames = frame :: outer) (calm : frame.Calm)
    (m : Message) : Turn w t (t.submit w outer (w.receiveMessage m)) := by
  simp only [World.receiveMessage]
  split
  next found => exact of_enqueue frames calm (World.lt_of_streamOf? found) m
  · exact of_return frames calm trivial rfl rfl (by simp)

theorem of_command {c : Command} {fresh : Nat} {r : Step}
    (frames : t.frames = .command c :: outer) (h : t.stepCommand? w fresh c outer = some r) :
    Turn w t r := by
  have calm : (Frame.command c).Calm := trivial
  cases c with
  | store command =>
    simp only [Thread.stepCommand?] at h
    split at h <;> cases h
    · exact of_raise [] frames calm (by simp)
    next found => exact of_return frames calm (World.storeCommand?_calm found) rfl rfl (by simp)
  | query command =>
    simp only [Thread.stepCommand?, Option.some.injEq] at h
    subst h
    split
    · exact of_raise [] frames calm (by simp)
    · exact of_return frames calm trivial rfl rfl (by simp)
  | receive name operand | receiveMessage name operand =>
    simp only [Thread.stepCommand?, Option.some.injEq] at h
    subst h
    split
    · exact of_raise [] frames calm (by simp)
    · exact of_receive frames calm _
  | enqueue category name operand =>
    simp only [Thread.stepCommand?, Option.some.injEq] at h
    subst h
    split
    · exact of_raise [] frames calm (by simp)
    · split
      · exact of_return frames calm trivial rfl rfl (by simp)
      next found => exact of_enqueue frames calm (World.lt_of_streamOf? found) _
  | schedule => cases h; exact of_goto [.schedule _ 0] frames calm trivial (by simp [Frame.Calm]) (by simp)
  | scheduleConcurrently =>
    cases h
    exact .calm _ outer [.join _] frames calm trivial rfl (by simp [Frame.Calm]) rfl
      (by simp only [List.mem_map]; rintro x ⟨s, -, rfl⟩; exact ⟨s, rfl⟩) (by simp)
  | runPending category =>
    simp only [Thread.stepCommand?, Option.some.injEq] at h
    subst h
    split
    · exact of_return frames calm trivial rfl rfl (by simp)
    · exact .drain _ outer [] _ frames calm (by simp)

theorem of_frame {frame : Frame} {fresh : Nat} {outcomes : Nat → Option (Except Panic Reply)}
    {r : Step} (frames : t.frames = frame :: outer) (run : t.control = .run)
    (h : t.stepFrame? w fresh outcomes frame outer = some r) : Turn w t r := by
  cases frame with
  | command command => exact of_command frames h
  | schedule left total =>
    cases left <;> cases h
    · exact of_return frames trivial trivial rfl rfl (by simp)
    · exact .drain _ outer [.schedule _ total] _ frames trivial (by simp [Frame.Calm])
  | drain s p e => cases h; exact of_drain s e p frames run
  | run i phases => cases h; exact of_run i phases frames
  | phase i phase moves =>
    cases moves <;> cases h
    · exact of_return frames trivial trivial rfl rfl (by simp [Occurrence.Calm])
    · exact of_move frames
  | borrow a actions =>
    simp only [Thread.stepFrame?] at h
    split at h <;> cases h
    exact of_goto [.callback a actions] frames trivial trivial (by simp [Frame.Calm]) (by simp)
  | callback a actions =>
    cases actions <;> cases h
    · exact of_return frames trivial trivial rfl rfl (by simp)
    · exact of_goto [.action a _, .log _ _, .callback a _] frames trivial trivial (by simp [Frame.Calm])
        (by simp)
  | action a action => exact of_action frames h
  | log | logDrain | catching => cases h; exact of_return frames trivial trivial rfl rfl (by simp)
  | helper spans => cases h; exact .dismiss _ spans outer frames rfl rfl
  | join threads =>
    simp only [Thread.stepFrame?] at h
    split at h
    · cases h
    · split at h <;> cases h <;> exact of_return frames trivial trivial rfl rfl (by simp)

theorem of_reply {frame : Frame} {reply : Reply} (frames : t.frames = frame :: outer)
    (control : t.control = .reply reply) : Turn w t (t.stepReply w reply frame outer) := by
  cases frame with
  | drain s p e => exact .complete s e p outer reply frames control
  | run i phases =>
    cases phases with
    | nil => exact .finish _ i [] outer [] frames rfl (by simp [Thread.give]) rfl (by simp)
    | cons phase phases => exact .proceed i _ _ phases outer [] [] frames rfl rfl (by simp) (by simp)
  | helper spans => exact .dismiss _ spans outer frames rfl rfl
  | schedule left total =>
    exact of_goto [.schedule left _] frames trivial trivial (by simp [Frame.Calm]) (by simp)
  | phase i phase moves =>
    exact of_goto [.phase i phase moves] frames trivial trivial (by simp [Frame.Calm]) (by simp)
  | callback a actions =>
    exact of_goto [.callback a actions] frames trivial trivial (by simp [Frame.Calm]) (by simp)
  | log => exact of_return frames trivial trivial rfl rfl (by simp [Occurrence.Calm])
  | logDrain s => exact of_goto [] frames trivial trivial (by simp) (by simp [Occurrence.Calm])
  | command | borrow | action | catching | join =>
    exact of_return frames trivial trivial rfl rfl (by simp)

theorem of_unwind {frame : Frame} {panic : Panic} (frames : t.frames = frame :: outer)
    (control : t.control = .unwind panic) : Turn w t (t.stepUnwind panic frame outer) := by
  cases frame with
  | drain s p e => exact .abandon s e p outer panic frames control
  | run i phases => exact .finish _ i phases outer [] frames rfl (by simp [Thread.fail]) rfl (by simp)
  | helper spans => exact .dismiss _ spans outer frames rfl rfl
  | phase => exact of_return frames trivial trivial rfl rfl (by simp [Occurrence.Calm])
  | command | schedule | callback | borrow | action | log | logDrain | catching | join =>
    exact of_return frames trivial trivial rfl rfl (by simp)

end Turn

theorem Thread.turn_of_step? {w : World} {t : Thread} {fresh : Nat}
    {outcomes : Nat → Option (Except Panic Reply)} {r : Step}
    (h : t.step? w fresh outcomes = some r) : Turn w t r := by
  simp only [Thread.step?] at h
  split at h
  · cases h
  next frame outer frames =>
    split at h
    next run => exact .of_frame frames run h
    next reply control => cases h; exact .of_reply frames control
    next panic control => cases h; exact .of_unwind frames control

end StreamMachine
