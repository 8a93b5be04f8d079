import StreamMachine.Proofs.Await
import StreamMachine.Proofs.Stored

/-! The locks of the storages against the callbacks that hold them. A step lends a storage to one
callback or takes it back from one, changes what is in a storage through an accessor or while nobody
holds it, or does nothing of the kind. So the holders that a lock counts are the callbacks under way,
over all stacks of a machine, and what a callback has been lent changes by its own hand only. -/
namespace StreamMachine

/-- A callback that has been lent a storage in a mode. -/
def Frame.borrows (mode : AccessMode) (id : StorageId) : Frame → Bool
  | .callback a _ => a.mode = mode ∧ a.storage = id
  | _ => false

/-- Frames other than callbacks. -/
def Frame.Free : Frame → Prop
  | .callback .. => False
  | _ => True

/-- Deeds that leave locks and contents of the storages alone that there are. -/
def Deed.Aloof : Deed → Prop
  | .acquire .. | .release _ | .setBlob .. => False
  | _ => True

/-- A step of a thread, by what it does to locks, to storages, and to callbacks under way. -/
inductive Hold (w : World) (t : Thread) : Step → Prop
  | aloof {r : Step} (frame : Frame) (outer added : List Frame) (frames : t.frames = frame :: outer)
      (free : frame.Free) (stack : r.thread.frames = added ++ outer) (above : ∀ f ∈ added, f.Free)
      (deed : r.deed.Aloof)
      (other : ∀ a x, frame = .action a (.access x) → t.control ≠ .run) : Hold w t r
  /-- A callback goes on. -/
  | linger {r : Step} (a : Accessor) (old new : List Action) (outer added : List Frame)
      (frames : t.frames = .callback a old :: outer)
      (stack : r.thread.frames = added ++ .callback a new :: outer) (above : ∀ f ∈ added, f.Free)
      (deed : r.deed.Aloof) : Hold w t r
  | access (a : Accessor) (x : Access) (outer : List Frame) (blob new : Blob) (reply : Reply)
      (frames : t.frames = .action a (.access x) :: outer) (run : t.control = .run)
      (found : w.store.blob? a.storage = some blob) (done : a.perform w blob x = .ok (reply, new)) :
      Hold w t ⟨.setBlob a.storage new, t.give outer reply, [], []⟩
  | refuse (a : Accessor) (x : Access) (outer : List Frame) (panic : Panic)
      (frames : t.frames = .action a (.access x) :: outer) (run : t.control = .run)
      (refused : ∀ blob, w.store.blob? a.storage = some blob →
        a.perform w blob x = .error panic) : Hold w t (t.raise outer panic)
  /-- A command writes to a storage that nobody holds. -/
  | poke (c : Command) (outer : List Frame) (id : StorageId) (blob : Blob) (reply : Reply)
      (frames : t.frames = .command c :: outer) (run : t.control = .run)
      (free : w.store.canAcquire .write id = true) :
      Hold w t ⟨.setBlob id blob, t.give outer reply, [], []⟩
  | lend (a : Accessor) (actions : List Action) (outer : List Frame)
      (frames : t.frames = .borrow a actions :: outer) (run : t.control = .run)
      (free : w.store.canAcquire a.mode a.storage = true) :
      Hold w t ⟨.acquire a.mode a.storage, t.goto (.callback a actions :: outer), [], []⟩
  /-- A callback ends or unwinds. -/
  | release {r : Step} (a : Accessor) (actions : List Action) (outer : List Frame)
      (frames : t.frames = .callback a actions :: outer) (stack : r.thread.frames = outer)
      (deed : r.deed = .release a.storage) : Hold w t r

namespace World

variable {w : World} {reply : Reply}

theorem Asks.aloof {d : Deed} (h : w.Asks d) : d.Aloof ∨ ∃ id blob, d = .setBlob id blob := by
  cases h with
  | write => exact .inr ⟨_, _, rfl⟩
  | _ => exact .inl trivial

theorem canAcquire_of_poke? {id target : StorageId} {words : List UInt32} {blob : Blob}
    (h : w.poke? id words = some (reply, .setBlob target blob)) :
    w.store.canAcquire .write target = true := by
  rw [poke?] at h
  split at h
  next free =>
    obtain ⟨old, -, h⟩ := Option.map_eq_some_iff.1 h
    split at h <;> cases h
    exact free
  · cases h

/-- Commands write to storages that nobody holds. -/
theorem canAcquire_of_storeCommand? {c : StoreCommand} {id : StorageId} {blob : Blob}
    (h : w.storeCommand? c = .ok (some (reply, .setBlob id blob))) :
    w.store.canAcquire .write id = true := by
  cases c with
  | poke _ words | pokeStorage _ words =>
    simp only [storeCommand?, bind_ok] at h
    obtain ⟨_, -, h⟩ := h
    exact canAcquire_of_poke? (Except.ok.inj h)
  | newBlob _ source | newStorage _ source =>
    simp only [storeCommand?, bind_ok] at h
    obtain ⟨made, -, h⟩ := h
    cases made <;> cases h
  | shares | sharesBlob | rebind =>
    simp only [storeCommand?, bind_ok] at h
    obtain ⟨_, -, _, -, h⟩ := h
    cases h
  | newHandle | grab | publish =>
    simp only [storeCommand?, bind_ok] at h
    obtain ⟨_, -, h⟩ := h
    cases h
  | published | withdraw | isPublished | publishedCount => cases h
  | snapshot | peek =>
    simp only [storeCommand?, bind_ok] at h
    obtain ⟨_, -, h⟩ := h
    obtain ⟨_, -, h⟩ := Option.map_eq_some_iff.1 (Except.ok.inj h)
    cases h
  | sameContents =>
    simp only [storeCommand?, bind_ok] at h
    obtain ⟨_, -, _, -, h⟩ := h
    obtain ⟨_, -, h⟩ := Option.bind_eq_some_iff.1 (Except.ok.inj h)
    obtain ⟨_, -, h⟩ := Option.map_eq_some_iff.1 h
    cases h

end World

namespace Hold

variable {w : World} {t : Thread} {outer : List Frame} {frame : Frame} {r : Step}

/-- A frame that is no access gives way to others. -/
theorem of_plain (added : List Frame) {d : Deed} {x : Thread} {spawned : List Thread}
    {seen : List Occurrence} (frames : t.frames = frame :: outer) (free : frame.Free)
    (stack : x.frames = added ++ outer) (above : ∀ f ∈ added, f.Free) (deed : d.Aloof)
    (other : ∀ a x, frame = .action a (.access x) → t.control ≠ .run) :
    Hold w t ⟨d, x, spawned, seen⟩ :=
  .aloof frame outer added frames free stack above deed other

theorem of_raise {panic : Panic} (added : List Frame) (frames : t.frames = frame :: outer)
    (free : frame.Free) (above : ∀ f ∈ added, f.Free)
    (other : ∀ a x, frame = .action a (.access x) → t.control ≠ .run) :
    Hold w t (t.raise (added ++ outer) panic) :=
  .aloof frame outer added frames free rfl above trivial other

theorem of_submit (frames : t.frames = frame :: outer) (free : frame.Free)
    (other : ∀ a x, frame = .action a (.access x) → t.control ≠ .run)
    (outcome : World.Submission) : Hold w t (t.submit w outer outcome) := by
  cases outcome <;> exact of_plain [] frames free rfl (by simp) trivial other

theorem of_command {c : Command} {fresh : Nat} (frames : t.frames = .command c :: outer)
    (run : t.control = .run) (h : t.stepCommand? w fresh c outer = some r) : Hold w t r := by
  have other (a : Accessor) (x : Access) (same : Frame.command c = .action a (.access x))
      (_ : t.control = .run) : False := nomatch same
  cases c with
  | store c =>
    simp only [Thread.stepCommand?] at h
    split at h <;> cases h
    · exact of_raise [] frames trivial (by simp) other
    next reply d found =>
      obtain aloof | ⟨id, blob, rfl⟩ := (World.asks_of_storeCommand? found).aloof
      · exact of_plain [] frames trivial rfl (by simp) aloof other
      · exact .poke _ outer id blob _ frames run (World.canAcquire_of_storeCommand? found)
  | query c =>
    simp only [Thread.stepCommand?, Option.some.injEq] at h
    subst h
    split
    · exact of_raise [] frames trivial (by simp) other
    · exact of_plain [] frames trivial rfl (by simp) trivial other
  | receive | receiveMessage =>
    simp only [Thread.stepCommand?, Option.some.injEq] at h
    subst h
    split
    · exact of_raise [] frames trivial (by simp) other
    · exact of_submit frames trivial other _
  | enqueue =>
    simp only [Thread.stepCommand?, Option.some.injEq] at h
    subst h
    split
    · exact of_raise [] frames trivial (by simp) other
    · split
      · exact of_plain [] frames trivial rfl (by simp) trivial other
      · exact of_submit frames trivial other _
  | schedule =>
    cases h
    exact of_plain [.schedule _ 0] frames trivial rfl (by simp [Frame.Free]) trivial other
  | scheduleConcurrently =>
    cases h
    exact of_plain [.join _] frames trivial rfl (by simp [Frame.Free]) trivial other
  | runPending =>
    simp only [Thread.stepCommand?, Option.some.injEq] at h
    subst h
    split
    · exact of_plain [] frames trivial rfl (by simp) trivial other
    · exact of_plain [.drain _ .enter 0] frames trivial rfl (by simp [Frame.Free]) trivial other

theorem of_action {a : Accessor} {action : Action} (frames : t.frames = .action a action :: outer)
    (run : t.control = .run) (h : t.stepAction? w a action outer = some r) : Hold w t r := by
  have other (no : ∀ x, action ≠ .access x) (b : Accessor) (x : Access)
      (same : Frame.action a action = .action b (.access x)) : t.control ≠ .run := by
    cases same
    exact (no x rfl).elim
  cases action with
  | access x =>
    simp only [Thread.stepAction?, Option.some.injEq] at h
    subst h
    split
    next none => exact .refuse a x outer _ frames run (by simp [none])
    next blob found =>
      split
      next reply new done => exact .access a x outer blob new reply frames run found done
      next panic refused =>
        refine .refuse a x outer panic frames run fun other there => ?_
        obtain rfl : blob = other := Option.some.inj (found.symm.trans there)
        exact refused
  | panic message =>
    cases h
    exact of_raise [] frames trivial (by simp) (other (by simp))
  | attempt action =>
    cases h
    exact of_plain [.action a action, .catching] frames trivial rfl (by simp [Frame.Free]) trivial
      (other (by simp))
  | step c =>
    cases h
    exact of_plain [.command c] frames trivial rfl (by simp [Frame.Free]) trivial (other (by simp))
  | thread c =>
    cases h
    exact of_plain [.command c, .helper _, .catching] frames trivial rfl (by simp [Frame.Free])
      trivial (other (by simp))
  | signal =>
    cases h
    exact of_plain [] frames trivial rfl (by simp) trivial (other (by simp))
  | wait =>
    simp only [Thread.stepAction?] at h
    split at h <;> cases h
    exact of_plain [] frames trivial rfl (by simp) trivial (other (by simp))

theorem of_move {i : Instruction} {phase : Phase} {move : Move} {moves : List Move}
    (frames : t.frames = .phase i phase (move :: moves) :: outer) :
    Hold w t (t.stepMove w i move (.phase i phase moves :: outer)) := by
  have stays {d : Deed} {x : Thread} {seen : List Occurrence} (added : List Frame)
      (stack : x.frames = added ++ .phase i phase moves :: outer) (above : ∀ f ∈ added, f.Free)
      (deed : d.Aloof) : Hold w t ⟨d, x, [], seen⟩ := by
    refine of_plain (added ++ [.phase i phase moves]) frames trivial (by simpa using stack) ?_ deed
      (by simp)
    simpa [or_imp, forall_and, Frame.Free] using above
  have raised (panic : Panic) : Hold w t (t.raise (.phase i phase moves :: outer) panic) :=
    of_raise [.phase i phase moves] frames trivial (by simp [Frame.Free]) (by simp)
  cases move with
  | report =>
    simp only [Thread.stepMove]
    split
    · exact stays [] rfl (by simp) trivial
    · exact raised _
  | panic => exact raised _
  | drainOwn => exact stays [.drain _ .enter 0, .logDrain _] rfl (by simp [Frame.Free]) trivial
  | issue c => exact stays [.command c] rfl (by simp [Frame.Free]) trivial
  | lendBlob =>
    simp only [Thread.stepMove]
    split
    · exact raised _
    · split
      · exact raised _
      · exact stays [.borrow _ _] rfl (by simp [Frame.Free]) trivial
  | bindPublished =>
    simp only [Thread.stepMove]
    split
    · exact raised _
    · split
      · exact raised _
      · exact stays [] rfl (by simp) trivial

theorem of_drain {s e : Nat} {p : DrainPoint} (frames : t.frames = .drain s p e :: outer) :
    Hold w t (t.stepDrain w s p e outer) := by
  have goes {d : Deed} {x : Thread} {seen : List Occurrence} (added : List Frame)
      (stack : x.frames = added ++ outer) (above : ∀ f ∈ added, f.Free) (deed : d.Aloof) :
      Hold w t ⟨d, x, [], seen⟩ := of_plain added frames trivial stack above deed (by simp)
  cases p with
  | enter =>
    simp only [Thread.stepDrain]
    split
    · exact goes [] rfl (by simp) trivial
    · exact goes [.drain s .take e] rfl (by simp [Frame.Free]) trivial
  | take | execute =>
    simp only [Thread.stepDrain]
    split
    · exact goes [.drain s .leave e] rfl (by simp [Frame.Free]) trivial
    · exact goes [.run _ _, .drain s .execute e] rfl (by simp [Frame.Free]) trivial
  | leave => exact goes [.drain s .recheck e] rfl (by simp [Frame.Free]) trivial
  | recheck =>
    simp only [Thread.stepDrain]
    split
    · exact goes [] rfl (by simp) trivial
    · exact goes [.drain s .enter e] rfl (by simp [Frame.Free]) trivial

theorem of_frame {fresh : Nat} {outcomes : Nat → Option (Except Panic Reply)}
    (frames : t.frames = frame :: outer) (run : t.control = .run)
    (h : t.stepFrame? w fresh outcomes frame outer = some r) : Hold w t r := by
  cases frame with
  | command c => exact of_command frames run h
  | action a action => exact of_action frames run h
  | drain => cases h; exact of_drain frames
  | schedule left total =>
    cases left <;> cases h
    · exact of_plain [] frames trivial rfl (by simp) trivial (by simp)
    · exact of_plain [.drain _ .enter 0, .schedule _ total] frames trivial rfl (by simp [Frame.Free])
        trivial (by simp)
  | run i phases =>
    cases h
    cases phases with
    | nil => exact of_plain [] frames trivial rfl (by simp) trivial (by simp)
    | cons phase phases =>
      simp only [Thread.stepRun]
      split
      · exact of_raise [] frames trivial (by simp) (by simp)
      · exact of_plain [.phase i phase _, .run i _] frames trivial rfl (by simp [Frame.Free]) trivial
          (by simp)
  | phase i phase moves =>
    cases moves <;> cases h
    · exact of_plain [] frames trivial rfl (by simp) trivial (by simp)
    · exact of_move frames
  | borrow a actions =>
    simp only [Thread.stepFrame?] at h
    split at h <;> cases h
    next free => exact .lend a actions outer frames run free
  | callback a actions =>
    cases actions <;> cases h
    · exact .release a _ outer frames rfl rfl
    · exact .linger a _ _ outer [.action a _, .log _ _] frames rfl (by simp [Frame.Free]) trivial
  | log | logDrain | catching | helper =>
    cases h
    exact of_plain [] frames trivial rfl (by simp) trivial (by simp)
  | join threads =>
    simp only [Thread.stepFrame?] at h
    split at h
    · cases h
    · split at h <;> cases h <;> exact of_plain [] frames trivial rfl (by simp) trivial (by simp)

theorem of_reply {reply : Reply} (frames : t.frames = frame :: outer)
    (control : t.control = .reply reply) : Hold w t (t.stepReply w reply frame outer) := by
  have goes {d : Deed} {x : Thread} {seen : List Occurrence} (added : List Frame)
      (free : frame.Free) (stack : x.frames = added ++ outer) (above : ∀ f ∈ added, f.Free)
      (deed : d.Aloof) : Hold w t ⟨d, x, [], seen⟩ :=
    of_plain added frames free stack above deed (by simp [control])
  cases frame with
  | schedule left total =>
    exact goes [.schedule left _] trivial rfl (by simp [Frame.Free]) trivial
  | drain s p e => exact goes [.drain s .take _] trivial rfl (by simp [Frame.Free]) trivial
  | run i phases =>
    cases phases with
    | nil => exact goes [] trivial rfl (by simp) trivial
    | cons p phases => exact goes [.run _ phases] trivial rfl (by simp [Frame.Free]) trivial
  | phase i p moves => exact goes [.phase i p moves] trivial rfl (by simp [Frame.Free]) trivial
  | callback a actions => exact .linger a actions actions outer [] frames rfl (by simp) trivial
  | log | logDrain | catching | helper | command | borrow | action | join =>
    exact goes [] trivial rfl (by simp) trivial

theorem of_unwind {panic : Panic} (frames : t.frames = frame :: outer)
    (control : t.control = .unwind panic) : Hold w t (t.stepUnwind panic frame outer) := by
  cases frame with
  | callback a actions => exact .release a actions outer frames rfl rfl
  | drain | schedule | run | phase | log | logDrain | catching | helper | command | borrow | action
  | join => exact of_plain [] frames trivial rfl (by simp) trivial (by simp [control])

end Hold

theorem Thread.hold_of_step? {w : World} {t : Thread} {fresh : Nat}
    {outcomes : Nat → Option (Except Panic Reply)} {r : Step}
    (h : t.step? w fresh outcomes = some r) : Hold w t r := by
  simp only [Thread.step?] at h
  split at h
  · cases h
  next frame outer frames =>
    split at h
    next run => exact .of_frame frames run h
    next reply control => cases h; exact .of_reply frames control
    next panic control => cases h; exact .of_unwind frames control

/-- The storages whose contents a command asks for or changes, and the modes in which it needs them. -/
inductive StoreCommand.Needs (w : World) : StoreCommand → AccessMode → StorageId → Prop
  | snapshot {blob : String} {id : StorageId} (bound : w.bound blob = .ok id) :
      Needs w (.snapshot blob) .read id
  | peek {storage : String} {id : StorageId} (named : w.storage storage = .ok id) :
      Needs w (.peek storage) .read id
  | left {a b : String} {id other : StorageId} (bound : w.bound a = .ok id)
      (bound' : w.bound b = .ok other) : Needs w (.sameContents a b) .read id
  | right {a b : String} {id other : StorageId} (bound : w.bound a = .ok other)
      (bound' : w.bound b = .ok id) : Needs w (.sameContents a b) .read id
  | poke {blob : String} {words : List UInt32} {id : StorageId} (bound : w.bound blob = .ok id) :
      Needs w (.poke blob words) .write id
  | pokeStorage {storage : String} {words : List UInt32} {id : StorageId}
      (named : w.storage storage = .ok id) : Needs w (.pokeStorage storage words) .write id

/-- The lock that a frame on top of a stack needs to go on. -/
inductive Frame.Needs (w : World) : Frame → AccessMode → StorageId → Prop
  | borrow (a : Accessor) (actions : List Action) : Needs w (.borrow a actions) a.mode a.storage
  | command {c : StoreCommand} {mode : AccessMode} {id : StorageId} (needs : c.Needs w mode id) :
      Needs w (.command (.store c)) mode id

section

variable {w : World} {mode : AccessMode} {id : StorageId}

theorem StoreCommand.Needs.waits {c : StoreCommand} (needs : c.Needs w mode id)
    (held : w.store.canAcquire mode id = false) : w.storeCommand? c = .ok none := by
  have unread (mode : mode = .read) : w.readable? id = none := by
    subst mode
    rw [World.readable?, held]
    rfl
  have unwritten (mode : mode = .write) (words : List UInt32) : w.poke? id words = none := by
    subst mode
    rw [World.poke?, held]
    rfl
  cases needs with
  | snapshot bound | peek bound =>
    simp only [World.storeCommand?, bound, bind, Except.bind, unread rfl]
    rfl
  | left bound bound' | right bound bound' =>
    simp only [World.storeCommand?, bound, bound', bind, Except.bind, unread rfl]
    cases w.readable? _ <;> rfl
  | poke bound | pokeStorage bound =>
    simp only [World.storeCommand?, bound, bind, Except.bind, unwritten rfl]
    rfl

/-- A thread that needs a lock goes on when it gets it, and not before. -/
theorem Frame.Needs.waits {m : Machine} {t : Thread} {frame : Frame} {outer : List Frame}
    (needs : frame.Needs m.world mode id) (held : m.world.store.canAcquire mode id = false)
    (frames : t.frames = frame :: outer) (run : t.control = .run) (r : Step) : ¬ t.Goes m r := by
  intro goes
  cases needs with
  | borrow a actions =>
    have taken := goes.of_frame frames run (by simp)
    simp only [Thread.stepFrame?, held] at taken
    cases taken
  | command needs =>
    have taken := goes.of_frame frames run (by simp)
    simp only [Thread.stepFrame?, Thread.stepCommand?, needs.waits held] at taken
    cases taken

end

theorem Thread.Goes.hold {m : Machine} {t : Thread} {r : Step} (h : t.Goes m r) :
    Hold m.world t r := by
  cases h with
  | step taken => exact hold_of_step? taken
  | expire a gate outer frames run =>
    exact .of_plain [] frames trivial rfl (by simp) trivial (by simp)

namespace Lock

/-- How many callbacks hold a lock in a mode. -/
def holders : AccessMode → Lock → Nat
  | .read, shared others => others + 1
  | .write, exclusive => 1
  | _, _ => 0

theorem holders_acquire {mode : AccessMode} {lock : Lock} (free : lock.canAcquire mode = true)
    (other : AccessMode) :
    (lock.acquire mode).holders other = lock.holders other + if mode = other then 1 else 0 := by
  cases mode <;> cases lock <;> cases other <;> first | rfl | cases free

theorem holders_release {mode : AccessMode} {lock : Lock} (held : 0 < lock.holders mode)
    (other : AccessMode) :
    lock.release.holders other + (if mode = other then 1 else 0) = lock.holders other := by
  cases lock with
  | shared others =>
    cases mode <;> cases others <;> cases other <;> first | rfl | cases held
  | free | exclusive => cases mode <;> cases other <;> first | rfl | cases held

/-- A lock is held by one writer, or by readers, or not at all. -/
theorem holders_write (lock : Lock) : lock.holders .write = 0 ∨
    lock.holders .write = 1 ∧ lock.holders .read = 0 := by
  cases lock <;> simp [holders]

theorem canAcquire_iff {mode : AccessMode} {lock : Lock} : lock.canAcquire mode = true ↔
    lock.holders .write = 0 ∧ (mode = .write → lock.holders .read = 0) := by
  cases mode <;> cases lock <;> simp [canAcquire, holders]

end Lock

namespace World

variable {w : World} {d : Deed}

/-- The lock of a storage; one that there is not is free. -/
def lockAt (w : World) (id : StorageId) : Lock := ((w.store.cell? id).map (·.lock)).getD .free

theorem lockAt_of_cell? {id : StorageId} {cell : Cell} (found : w.store.cell? id = some cell) :
    w.lockAt id = cell.lock := by
  rw [lockAt, found]
  rfl

theorem exists_cell_of_canAcquire {mode : AccessMode} {id : StorageId}
    (free : w.store.canAcquire mode id = true) :
    ∃ cell, w.store.cell? id = some cell ∧ cell.lock.canAcquire mode = true := by
  rw [Store.canAcquire] at free
  split at free
  next cell found => exact ⟨cell, found, free⟩
  · cases free

theorem lockAt_updateCell (w : World) (id other : StorageId) (f : Lock → Lock) :
    (w.withStore (w.store.updateCell id fun cell => { cell with lock := f cell.lock })).lockAt other =
      if other = id ∧ (w.store.cell? other).isSome then f (w.lockAt other) else w.lockAt other := by
  rw [lockAt, withStore, cell?_updateCell, lockAt]
  by_cases same : other = id
  · cases found : w.store.cell? other <;> simp [same]
  · simp [same]

/-- Deeds that keep to themselves make new storages at most. -/
theorem cell?_after_of_aloof (aloof : d.Aloof) (id : StorageId) :
    (w.after d).store.cell? id = w.store.cell? id ∨
      w.store.cell? id = none ∧ ∃ blob, (w.after d).store.cell? id = some ⟨blob, .free⟩ := by
  have fresh (origin : Origin) :
      w.store.cell? ⟨origin, (w.store.cells.made origin).length⟩ = none := by
    rw [Store.cell?, Series.at?, List.getElem?_eq_none le_rfl]
  by_cases changed : .storage id ∈ d.changes w
  · right
    cases d with
    | acquire | release | setBlob => exact aloof.elim
    | newBlob name blob =>
      obtain rfl : id = ⟨.blob name, w.blobsMade name⟩ := by simpa [Deed.changes] using changed
      exact ⟨fresh _, blob, View.cell.inj ((w.view_newBlob name blob (.storage _)).trans (by simp))⟩
    | newStorage name blob =>
      obtain rfl : id = ⟨.storage name, w.storagesMade name⟩ := by
        simpa [Deed.changes] using changed
      exact ⟨fresh _, blob,
        View.cell.inj ((w.view_newStorage name blob (.storage _)).trans (by simp))⟩
    | _ => simp [Deed.changes] at changed
  · exact .inl (View.cell.inj (view_after_of_notMem changed))

theorem lockAt_after_of_aloof (aloof : d.Aloof) (id : StorageId) :
    (w.after d).lockAt id = w.lockAt id := by
  rw [lockAt, lockAt]
  obtain same | ⟨none, blob, new⟩ := cell?_after_of_aloof aloof id
  · rw [same]
  · rw [none, new]
    rfl

theorem blob?_after_of_aloof (aloof : d.Aloof) {id : StorageId} {blob : Blob}
    (there : w.store.blob? id = some blob) : (w.after d).store.blob? id = some blob := by
  obtain same | ⟨none, -⟩ := cell?_after_of_aloof aloof id
  · rw [Store.blob?, same]
    exact there
  · rw [Store.blob?, none] at there
    cases there

theorem blob?_after_setBlob (w : World) (id other : StorageId) (blob : Blob) :
    (w.after (.setBlob id blob)).store.blob? other =
      if other = id then (w.store.blob? other).map fun _ => blob else w.store.blob? other := by
  rw [after, withStore, Store.setBlob, blob?_updateCell, Store.blob?, Option.map_map]
  rfl

end World

/-- The access that a thread is about to make, and the accessor that it goes through. -/
def Thread.access? (t : Thread) : Option (Accessor × Access) :=
  match t.frames, t.control with
  | .action a (.access x) :: _, .run => some (a, x)
  | _, _ => none

theorem Thread.frames_of_access? {t : Thread} {a : Accessor} {x : Access}
    (h : t.access? = some (a, x)) :
    t.control = .run ∧ ∃ outer, t.frames = .action a (.access x) :: outer := by
  rw [access?] at h
  split at h <;> cases h
  exact ⟨‹_›, _, ‹_›⟩

namespace Hold

variable {w : World} {t : Thread} {r : Step} {id : StorageId} {blob : Blob}

/-- An access changes its storage as its mode has it. -/
theorem blob?_of_access (h : Hold w t r) (there : w.store.blob? id = some blob) {a : Accessor}
    {x : Access} (access : t.access? = some (a, x)) (same : a.storage = id) :
    (w.after r.deed).store.blob? id = some (a.mode.apply blob x) := by
  obtain ⟨run, outer, frames⟩ := Thread.frames_of_access? access
  subst same
  have top {frame : Frame} {rest : List Frame} (frames' : t.frames = frame :: rest) :
      frame = .action a (.access x) := by
    rw [frames] at frames'
    cases frames'
    rfl
  cases h with
  | aloof frame rest added frames' free stack above deed other =>
    exact (other a x (top frames') run).elim
  | access b y rest old new reply frames' run found done =>
    cases top frames'
    obtain rfl := Option.some.inj (there.symm.trans found)
    rw [World.blob?_after_setBlob, if_pos rfl, there,
      AccessMode.apply_of_some (Accessor.access?_of_perform_ok done)]
    rfl
  | refuse b y rest panic frames' run refused =>
    cases top frames'
    rw [AccessMode.apply_of_none (Accessor.access?_of_perform_error (refused blob there))]
    exact there
  | linger _ _ _ _ _ frames' | poke _ _ _ _ _ frames' | lend _ _ _ frames'
  | release _ _ _ frames' => cases top frames'

/-- Steps that do not access a storage that is held leave it as it is. -/
theorem blob?_of_other (h : Hold w t r) (there : w.store.blob? id = some blob)
    (held : w.store.canAcquire .write id = false)
    (other : ∀ a x, t.access? = some (a, x) → a.storage ≠ id) :
    (w.after r.deed).store.blob? id = some blob := by
  cases h with
  | aloof _ _ _ _ _ _ _ deed | linger _ _ _ _ _ _ _ _ deed =>
    exact World.blob?_after_of_aloof deed there
  | access a x outer old new reply frames run =>
    have apart := other a x (by simp [Thread.access?, frames, run])
    rw [World.blob?_after_setBlob, if_neg (Ne.symm apart), there]
  | refuse => exact there
  | poke c outer target new reply frames run free =>
    have apart : id ≠ target := by
      rintro rfl
      rw [free] at held
      cases held
    rw [World.blob?_after_setBlob, if_neg apart, there]
  | lend a =>
    have same := World.blob?_updateCell_of_lock w a.storage id
      (f := fun cell => { cell with lock := cell.lock.acquire a.mode }) fun _ => rfl
    exact same.trans there
  | release a _ _ _ _ deed =>
    have same := World.blob?_updateCell_of_lock w a.storage id
      (f := fun cell => { cell with lock := cell.lock.release }) fun _ => rfl
    rw [deed]
    exact same.trans there

end Hold

theorem Frame.Free.borrows {f : Frame} (free : f.Free) (mode : AccessMode) (id : StorageId) :
    f.borrows mode id = false := by
  cases f <;> first | exact free.elim | rfl

theorem Frame.borrows_callback (mode : AccessMode) (id : StorageId) (a : Accessor)
    (actions : List Action) :
    (Frame.callback a actions).borrows mode id = decide (a.mode = mode ∧ a.storage = id) := rfl

theorem countP_borrows_append {added : List Frame} (above : ∀ f ∈ added, f.Free) (outer : List Frame)
    (mode : AccessMode) (id : StorageId) :
    (added ++ outer).countP (Frame.borrows mode id) = outer.countP (Frame.borrows mode id) := by
  have none : added.countP (Frame.borrows mode id) = 0 :=
    List.countP_eq_zero.2 fun f hf => by simp [(above f hf).borrows mode id]
  rw [List.countP_append, none, Nat.zero_add]

theorem countP_borrows_cons {frame : Frame} (free : frame.Free) (outer : List Frame)
    (mode : AccessMode) (id : StorageId) :
    (frame :: outer).countP (Frame.borrows mode id) = outer.countP (Frame.borrows mode id) := by
  have alone : ∀ f ∈ [frame], f.Free := by simpa using free
  exact countP_borrows_append alone outer mode id

/-- A step of a thread moves its callbacks and the locks together. -/
theorem Hold.balance {w : World} {t : Thread} {r : Step} (h : Hold w t r)
    (covered : ∀ mode id, t.frames.countP (Frame.borrows mode id) ≤ (w.lockAt id).holders mode)
    (mode : AccessMode) (id : StorageId) :
    r.thread.frames.countP (Frame.borrows mode id) + (w.lockAt id).holders mode =
      t.frames.countP (Frame.borrows mode id) + ((w.after r.deed).lockAt id).holders mode := by
  have written (target : StorageId) (blob : Blob) :
      (w.after (.setBlob target blob)).lockAt id = w.lockAt id := by
    rw [World.lockAt, World.after, World.withStore, Store.setBlob, World.cell?_updateCell]
    split
    · rw [Option.map_map]
      rfl
    · rfl
  cases h with
  | aloof frame outer added frames free stack above deed =>
    rw [World.lockAt_after_of_aloof deed, frames, stack, countP_borrows_append above,
      countP_borrows_cons free]
  | linger a old new outer added frames stack above deed =>
    rw [World.lockAt_after_of_aloof deed, frames, stack, countP_borrows_append above,
      List.countP_cons, List.countP_cons, Frame.borrows_callback, Frame.borrows_callback]
  | access a x outer blob new reply frames =>
    rw [written, frames, countP_borrows_cons (show Frame.Free (.action a _) from trivial)]
    rfl
  | refuse a x outer panic frames =>
    rw [frames, countP_borrows_cons (show Frame.Free (.action a _) from trivial)]
    rfl
  | poke c outer target blob reply frames =>
    rw [written, frames, countP_borrows_cons (show Frame.Free (.command c) from trivial)]
    rfl
  | lend a actions outer frames run free =>
    obtain ⟨cell, found, free⟩ := World.exists_cell_of_canAcquire free
    have lock := World.lockAt_updateCell w a.storage id (Lock.acquire a.mode)
    rw [frames, countP_borrows_cons (show Frame.Free (.borrow a actions) from trivial), World.after,
      Store.acquire, lock]
    simp only [Thread.goto, List.countP_cons, Frame.borrows_callback]
    by_cases same : id = a.storage
    · subst same
      rw [if_pos ⟨rfl, by rw [found]; rfl⟩, World.lockAt_of_cell? found, Lock.holders_acquire free]
      simp only [and_true, decide_eq_true_eq]
      omega
    · simp [same, Ne.symm same]
  | release a actions outer frames stack deed =>
    have held := covered a.mode a.storage
    rw [frames, List.countP_cons, Frame.borrows_callback] at held
    have positive : 0 < (w.lockAt a.storage).holders a.mode := by
      simp at held
      omega
    have lock := World.lockAt_updateCell w a.storage id Lock.release
    rw [frames, stack, deed, World.after, Store.release, lock]
    simp only [List.countP_cons, Frame.borrows_callback]
    by_cases same : id = a.storage
    · subst same
      have there : (w.store.cell? a.storage).isSome := by
        cases found : w.store.cell? a.storage with
        | some => rfl
        | none =>
          rw [World.lockAt, found] at positive
          cases mode : a.mode <;> rw [mode] at positive <;> cases positive
      have freed := Lock.holders_release positive mode
      rw [if_pos ⟨rfl, there⟩]
      simp only [and_true, decide_eq_true_eq]
      omega
    · simp [same, Ne.symm same]

namespace Machine

variable {m m' : Machine} {seen new : List Occurrence} {i : Nat} {t : Thread} {r : Step}

/-- Callbacks under way that have been lent a storage in a mode. -/
def borrowers (m : Machine) (mode : AccessMode) (id : StorageId) : Nat :=
  countFrames (Frame.borrows mode id) m.threads

/-- Locks count the callbacks under way. -/
def Locked (m : Machine) : Prop :=
  ∀ mode id, m.borrowers mode id = (m.world.lockAt id).holders mode

theorem Locked.stepped (h : m.Locked) (found : m.threads[i]? = some t)
    (hold : Hold m.world t r) (spawned : ∀ x ∈ r.spawned, ∃ s, x = .worker s) :
    (m.stepped i r).Locked := by
  intro mode id
  have balance := hold.balance (fun mode id => (countP_le_countFrames found _).trans_eq (h mode id))
    mode id
  have set := countFrames_set found (Frame.borrows mode id) r.thread
  have none := countFrames_workers (p := Frame.borrows mode id) (fun _ => rfl) spawned
  have before := h mode id
  rw [borrowers] at before
  rw [borrowers, Machine.stepped, countFrames_append, none]
  change _ = ((m.world.after r.deed).lockAt id).holders mode
  omega

theorem Moves.locked (move : m.Moves new m') (h : m.Locked) : m'.Locked := by
  cases move with
  | step i step =>
    obtain ⟨t, r, found, taken, rfl, -⟩ := step_of_stepAt? step
    exact h.stepped found (Thread.hold_of_step? taken) fun x hx =>
      ((Thread.stride_of_step? taken).spawned x hx).imp fun _ => And.right
  | expire i step =>
    simp only [expireAt?, Option.bind_eq_bind, Option.bind_eq_some_iff] at step
    obtain ⟨t, found, step⟩ := step
    split at step
    next a gate outer frames control =>
      cases step
      have goes : t.Goes m _ := .expire a gate outer frames control
      simpa [Machine.stepped, World.after] using h.stepped found goes.hold (by simp)
    · cases step
  | call command =>
    intro mode id
    rw [borrowers, countFrames_append]
    exact h mode id
  | offer s message =>
    intro mode id
    exact (h mode id).trans (by rw [World.lockAt_after_of_aloof (d := .push s message) trivial])
  | revise i t t' found revised =>
    intro mode id
    have same : t'.frames.countP (Frame.borrows mode id) =
        t.frames.countP (Frame.borrows mode id) := by
      cases revised with
      | moves i p old new outer frames =>
        rw [frames, countP_borrows_cons (show Frame.Free (.phase i p new) from trivial),
          countP_borrows_cons (show Frame.Free (.phase i p old) from trivial)]
      | actions a old new outer frames =>
        rw [frames, List.countP_cons, List.countP_cons, Frame.borrows_callback,
          Frame.borrows_callback]
    have set := countFrames_set found (Frame.borrows mode id) t'
    have before := h mode id
    rw [borrowers] at before ⊢
    change countFrames _ (m.threads.set i t') = (m.world.lockAt id).holders mode
    omega

theorem Reaches.locked {m₀ : Machine} (run : m₀.Reaches seen m) (h : m₀.Locked) : m.Locked := by
  induction run with
  | refl => exact h
  | move _ last ih => exact last.locked ih

theorem Locked.init {config : MachineConfig} {registry : Registry} {w : World}
    (created : World.create config registry = .ok w) : Locked ⟨w, []⟩ := by
  simp only [World.create] at created
  split at created <;> cases created
  intro mode id
  cases mode <;> rfl

/-- What a callback under way has been lent nobody else takes in a mode that does not go with its
own. -/
theorem Locked.canAcquire (h : m.Locked) (found : m.threads[i]? = some t) {a : Accessor}
    {actions : List Action} (mem : .callback a actions ∈ t.frames) {mode : AccessMode}
    (conflict : a.mode = .write ∨ mode = .write) :
    m.world.store.canAcquire mode a.storage = false := by
  have held : 0 < (m.world.lockAt a.storage).holders a.mode := by
    rw [← h a.mode a.storage]
    refine lt_of_lt_of_le ?_ (countP_le_countFrames found _)
    exact List.countP_pos_iff.2 ⟨_, mem, by simp [Frame.borrows]⟩
  by_contra free
  obtain ⟨cell, there, free⟩ := World.exists_cell_of_canAcquire (by simpa using free)
  rw [World.lockAt_of_cell? there] at held
  obtain ⟨none, unread⟩ := Lock.canAcquire_iff.1 free
  cases own : a.mode with
  | write => rw [own] at held; omega
  | read =>
    have := unread (by simpa [own] using conflict)
    rw [own] at held
    omega

/-- Two callbacks that have been lent one storage both read. -/
theorem Locked.reads_of_two (h : m.Locked) {a b : Accessor} (two : ∀ mode,
    (if a.mode = mode then 1 else 0) + (if b.mode = mode then 1 else 0) ≤
      m.borrowers mode a.storage) : a.mode = .read ∧ b.mode = .read := by
  have readers := two .read
  have writers := two .write
  rw [h] at readers writers
  have lock := (m.world.lockAt a.storage).holders_write
  cases own : a.mode <;> cases other : b.mode <;>
    simp [own, other] at readers writers ⊢ <;> omega

end Machine

end StreamMachine
