import StreamMachine.Proofs.Beside
import StreamMachine.Proofs.Leased
import StreamMachine.Proofs.Transcription

/-! What a callback leaves behind that panics while it writes. The accesses before the panic have
taken effect one by one, those that failed without any; the actions behind it are never taken up.
The panic goes up through the callback, which gives the storage back, and through its instruction to
the drain, which gives up the guard, whatever other threads do meanwhile. From then on whoever is
bound to the storage gets at it, and finds those contents until somebody writes. -/
namespace StreamMachine

namespace AccessMode

variable {mode : AccessMode} {blob : Blob} {x : Access}

theorem apply_of_reads (reads : x.writes = false) : mode.apply blob x = blob := by
  cases mode <;> cases x <;> first | rfl | cases reads

/-- An access leaves the layout of the blob as it is. -/
theorem apply_same (mode : AccessMode) (blob : Blob) (x : Access) :
    (mode.apply blob x).shape = blob.shape ∧ (mode.apply blob x).dataType = blob.dataType ∧
      (mode.apply blob x).byteSize = blob.byteSize := by
  -- What it makes of the blob is the same whoever makes it, and in whatever world.
  let a : Accessor := { storage := ⟨.blob "", 0⟩, mode, category := .host, device := 0 }
  let w : World := { registry := .empty, streams := [] }
  cases done : a.perform w blob x with
  | ok answer =>
    have made : mode.access? blob x = some answer.2 := Accessor.access?_of_perform_ok done
    have changed : blob.Changed answer.2 := .access a w x answer.1 done
    rw [apply_of_some made]
    exact changed.same
  | error panic =>
    have refused : mode.access? blob x = none := Accessor.access?_of_perform_error done
    rw [apply_of_none refused]
    exact ⟨rfl, rfl, rfl⟩

theorem result_same (mode : AccessMode) (xs : List Access) (blob : Blob) :
    (mode.result xs blob).shape = blob.shape ∧ (mode.result xs blob).dataType = blob.dataType ∧
      (mode.result xs blob).byteSize = blob.byteSize := by
  induction xs generalizing blob with
  | nil => exact ⟨rfl, rfl, rfl⟩
  | cons x xs ih =>
    obtain ⟨shape, dataType, size⟩ := ih (mode.apply blob x)
    obtain ⟨shape', dataType', size'⟩ := apply_same mode blob x
    exact ⟨shape.trans shape', dataType.trans dataType', size.trans size'⟩

end AccessMode

namespace Machine

variable {place : Nat} {m m' m₀ : Machine} {own rest : List Pace} {t : Thread} {r : Step}

/-- What a callback of the thread has been lent nobody else changes. -/
theorem Aside.blob? (h : Aside place m m') (locked : m.Locked) (orderly : m.Orderly)
    (found : m.threads[place]? = some t) {a : Accessor} {left : List Action}
    (mem : .callback a left ∈ t.frames) {blob : Blob}
    (there : m.world.store.blob? a.storage = some blob) :
    m'.world.store.blob? a.storage = some blob := by
  cases h with
  | go i apart u r found' goes =>
    exact locked.blob?_other found mem found' apart
      (orderly.nested u (List.mem_of_getElem? found')) goes.hold there
  | call | revise => exact there
  | offer s message => exact World.blob?_after_of_aloof (d := .push s message) trivial there

end Machine

/-- An action on a blob that panics, of itself or by an index that is out of range. -/
inductive Action.Panics (blob : Blob) : Action → Panic → Prop
  | raised (message : String) : Panics blob (.panic message) (.raised message)
  | outside (index : Nat) (value : UInt8) (beyond : blob.byteSize ≤ index) :
      Panics blob (.access (.setByte index value))
        (.storage (.indexOutOfBounds blob.byteSize index))

/-- A callback that writes a blob by some accesses, none of them out of range, and panics then. -/
structure Doomed (blob : Blob) (xs : List Access) (bad : Action) (panic : Panic) : Prop where
  inside : ∀ index value, .setByte index value ∈ xs → index < blob.byteSize
  panics : bad.Panics blob panic

namespace Doomed

variable {blob : Blob} {xs done todo : List Access} {x : Access} {bad : Action} {panic : Panic}
  {a : Accessor}

/-- The accesses before the panic return. -/
theorem returns (h : Doomed blob xs bad panic) (split : done ++ x :: todo = xs)
    (write : a.mode = .write) (w : World) :
    ∃ reply new, a.perform w (AccessMode.write.result done blob) x = .ok (reply, new) := by
  unfold Accessor.perform
  rw [write]
  cases x with
  | writeWords words =>
    cases done' : (AccessMode.write.result done blob).writeWords words <;> simp [done']
  | copyFrom source =>
    cases done' : (AccessMode.write.result done blob).copyFrom source <;> simp [done']
  | setByte index value =>
    have inside := h.inside index value (split ▸ List.mem_append_right done List.mem_cons_self)
    have size := (AccessMode.write.result_same done blob).2.2
    have fits : index < (AccessMode.write.result done blob).bytes.length := by
      rw [← size] at inside
      exact inside
    simp [Blob.setByte, fits]
  | _ => exact ⟨_, _, rfl⟩

/-- Each takes its effect on what those before it have left, or fails without any. -/
theorem effects (h : Doomed blob xs bad panic) (split : done ++ x :: todo = xs)
    (write : a.mode = .write) (w : World) : ∃ reply new,
    a.perform w (AccessMode.write.result done blob) x = .ok (reply, new) ∧
      AccessMode.write.result (done ++ [x]) blob = new ∧
      ∀ failure, reply = .failed failure → new = AccessMode.write.result done blob := by
  obtain ⟨reply, new, done'⟩ := h.returns split write w
  have some := Accessor.access?_of_perform_ok done'
  rw [write] at some
  refine ⟨reply, new, done', ?_, ?_⟩
  · rw [AccessMode.result_append, AccessMode.apply_of_some some]
  · rintro failure rfl
    exact Accessor.eq_of_perform_failed done'

/-- The panicking action does so after whatever accesses. -/
theorem raises (h : Doomed blob xs bad panic) (write : a.mode = .write) {w : World} {t : Thread}
    {outer : List Frame} {now : Blob} (found : w.store.blob? a.storage = some now)
    (size : now.byteSize = blob.byteSize) :
    t.stepAction? w a bad outer = some ⟨.nothing, t.fail outer panic, [], []⟩ := by
  cases h.panics with
  | raised message => rfl
  | outside index value beyond =>
    have out : ¬index < now.bytes.length := by
      rw [← size] at beyond
      exact Nat.not_lt.2 beyond
    have raised : a.perform w now (.setByte index value) =
        .error (.storage (.indexOutOfBounds blob.byteSize index)) := by
      unfold Accessor.perform
      rw [write, ← size]
      simp [Blob.setByte, out, Blob.byteSize]
    simp only [Thread.stepAction?, found, raised]
    rfl

end Doomed

/-- Where a callback stands that is going to panic, after how many steps of its thread, and by which
accesses then. -/
inductive Falls (a : Accessor) (xs : List Access) (bad : Action) (later : List Action)
    (base : List Frame) (panic : Panic) (t : Thread) : Nat → List Access → Prop
  | ready (done todo : List Access) (split : done ++ todo = xs)
      (frames : t.frames = .callback a (todo.map .access ++ bad :: later) :: base)
      (run : t.control = .run) : Falls a xs bad later base panic t (4 * done.length) done
  | acting (done : List Access) (x : Access) (todo : List Access) (split : done ++ x :: todo = xs)
      (frames : t.frames = .action a (.access x) :: .log a.category x.name ::
        .callback a (todo.map .access ++ bad :: later) :: base)
      (run : t.control = .run) : Falls a xs bad later base panic t (4 * done.length + 1) done
  | acted (done : List Access) (x : Access) (todo : List Access) (split : done ++ x :: todo = xs)
      (reply : Reply) (frames : t.frames = .log a.category x.name ::
        .callback a (todo.map .access ++ bad :: later) :: base)
      (control : t.control = .reply reply) :
      Falls a xs bad later base panic t (4 * done.length + 2) (done ++ [x])
  | logged (done : List Access) (x : Access) (todo : List Access) (split : done ++ x :: todo = xs)
      (reply : Reply)
      (frames : t.frames = .callback a (todo.map .access ++ bad :: later) :: base)
      (control : t.control = .reply reply) :
      Falls a xs bad later base panic t (4 * done.length + 3) (done ++ [x])
  | failing (frames : t.frames = .action a bad :: .log a.category bad.name ::
        .callback a later :: base)
      (run : t.control = .run) : Falls a xs bad later base panic t (4 * xs.length + 1) xs
  | failed (frames : t.frames = .log a.category bad.name :: .callback a later :: base)
      (control : t.control = .unwind panic) :
      Falls a xs bad later base panic t (4 * xs.length + 2) xs
  | falling (frames : t.frames = .callback a later :: base) (control : t.control = .unwind panic) :
      Falls a xs bad later base panic t (4 * xs.length + 3) xs

namespace Falls

variable {a : Accessor} {xs done : List Access} {bad : Action} {later : List Action}
  {base : List Frame} {panic : Panic} {t : Thread} {n : Nat} {m : Machine} {blob : Blob}

theorem within (h : Falls a xs bad later base panic t n done) :
    (∃ inner left, t.frames = inner ++ .callback a left :: base) ∧ done <+: xs ∧
      n < 4 * xs.length + 4 := by
  cases h with
  | ready done todo split frames =>
    refine ⟨⟨[], _, frames⟩, ⟨todo, split⟩, ?_⟩
    simp only [← split, List.length_append]
    omega
  | acting done x todo split frames =>
    refine ⟨⟨[_, _], _, frames⟩, ⟨x :: todo, split⟩, ?_⟩
    simp only [← split, List.length_append, List.length_cons]
    omega
  | acted done x todo split _ frames =>
    refine ⟨⟨[_], _, frames⟩, ⟨todo, by simpa using split⟩, ?_⟩
    simp only [← split, List.length_append, List.length_cons]
    omega
  | logged done x todo split _ frames =>
    refine ⟨⟨[], _, frames⟩, ⟨todo, by simpa using split⟩, ?_⟩
    simp only [← split, List.length_append, List.length_cons]
    omega
  | failing frames => exact ⟨⟨[_, _], _, frames⟩, List.prefix_rfl, by omega⟩
  | failed frames => exact ⟨⟨[_], _, frames⟩, List.prefix_rfl, by omega⟩
  | falling frames => exact ⟨⟨[], _, frames⟩, List.prefix_rfl, by omega⟩

theorem exists_callback (h : Falls a xs bad later base panic t n done) :
    ∃ left, .callback a left ∈ t.frames := by
  obtain ⟨⟨inner, left, stack⟩, -⟩ := h.within
  rw [stack]
  exact ⟨left, List.mem_append_right inner List.mem_cons_self⟩

/-- Between two accesses the callback takes up its next action, at last the one that panics. -/
theorem ready_next (panic : Panic) {todo : List Access} (split : done ++ todo = xs)
    (frames : t.frames = .callback a (todo.map .access ++ bad :: later) :: base)
    (run : t.control = .run) : ∃ x,
    t.step? m.world m.threads.length m.outcome? = some ⟨.nothing, x, [], []⟩ ∧
      Falls a xs bad later base panic x (4 * done.length + 1) done := by
  cases todo with
  | nil =>
    obtain rfl : done = xs := by simpa using split
    refine ⟨t.goto (.action a bad :: .log a.category bad.name :: .callback a later :: base), ?_,
      .failing rfl rfl⟩
    simp [Thread.step?, frames, run, Thread.stepFrame?]
  | cons x todo =>
    refine ⟨t.goto (.action a (.access x) :: .log a.category x.name ::
      .callback a (todo.map .access ++ bad :: later) :: base), ?_,
      .acting done x todo split rfl rfl⟩
    simp [Thread.step?, frames, run, Thread.stepFrame?, Action.name]

/-- The one step that the thread of the callback can take. -/
theorem step (h : Falls a xs bad later base panic t n done) (doomed : Doomed blob xs bad panic)
    (write : a.mode = .write)
    (there : m.world.store.blob? a.storage = some (AccessMode.write.result done blob)) :
    ∃ r, t.Goes m r ∧ (∀ r', t.Goes m r' → r' = r) ∧
      ((∃ done', Falls a xs bad later base panic r.thread (n + 1) done' ∧
          (m.world.after r.deed).store.blob? a.storage =
            some (AccessMode.write.result done' blob)) ∨
        n = 4 * xs.length + 3 ∧ done = xs ∧
          r = ⟨.release a.storage, t.fail base panic, [], []⟩) := by
  cases h with
  | ready done todo split frames run =>
    obtain ⟨x, taken, falls⟩ := ready_next (m := m) panic split frames run
    obtain ⟨goes, only⟩ := Thread.Goes.only taken (by simp [frames])
    exact ⟨_, goes, only, .inl ⟨_, falls, there⟩⟩
  | acting done x todo split frames run =>
    obtain ⟨reply, new, done'⟩ := doomed.returns split write m.world
    have taken : t.step? m.world m.threads.length m.outcome? = some ⟨.setBlob a.storage new,
        t.give (.log a.category x.name :: .callback a (todo.map .access ++ bad :: later) :: base)
          reply, [], []⟩ := by
      simp [Thread.step?, frames, run, Thread.stepFrame?, Thread.stepAction?, there, done']
    obtain ⟨goes, only⟩ := Thread.Goes.only taken (by simp [frames])
    have access : t.access? = some (a, x) := by simp [Thread.access?, frames, run]
    refine ⟨_, goes, only, .inl ⟨done ++ [x], .acted done x todo split reply rfl rfl, ?_⟩⟩
    rw [goes.hold.blob?_of_access there access rfl, write, AccessMode.result_append]
  | acted done x todo split reply frames control =>
    have taken : t.step? m.world m.threads.length m.outcome? = some ⟨.nothing,
        t.give (.callback a (todo.map .access ++ bad :: later) :: base) .ok, [],
          [.logged a.category x.name reply]⟩ := by
      simp [Thread.step?, frames, control, Thread.stepReply]
    obtain ⟨goes, only⟩ := Thread.Goes.only taken (by simp [frames])
    exact ⟨_, goes, only, .inl ⟨_, .logged done x todo split .ok rfl rfl, there⟩⟩
  | logged done x todo split reply frames control =>
    have taken : t.step? m.world m.threads.length m.outcome? = some ⟨.nothing,
        t.goto (.callback a (todo.map .access ++ bad :: later) :: base), [], []⟩ := by
      simp [Thread.step?, frames, control, Thread.stepReply]
    obtain ⟨goes, only⟩ := Thread.Goes.only taken (by simp [frames])
    have falls : Falls a xs bad later base panic
        (t.goto (.callback a (todo.map .access ++ bad :: later) :: base))
        (4 * (done ++ [x]).length) (done ++ [x]) := .ready _ todo (by simpa using split) rfl rfl
    rw [List.length_append] at falls
    exact ⟨_, goes, only, .inl ⟨_, falls, there⟩⟩
  | failing frames run =>
    have size := (AccessMode.write.result_same xs blob).2.2
    have taken : t.step? m.world m.threads.length m.outcome? = some ⟨.nothing,
        t.fail (.log a.category bad.name :: .callback a later :: base) panic, [], []⟩ := by
      simp only [Thread.step?, frames, run, Thread.stepFrame?]
      exact doomed.raises write there size
    obtain ⟨goes, only⟩ := Thread.Goes.only taken fun b gate outer waits => by
      rw [frames] at waits
      cases waits
      cases doomed.panics
    exact ⟨_, goes, only, .inl ⟨_, .failed rfl rfl, there⟩⟩
  | failed frames control =>
    have taken : t.step? m.world m.threads.length m.outcome? = some ⟨.nothing,
        t.fail (.callback a later :: base) panic, [], []⟩ := by
      simp [Thread.step?, frames, control, Thread.stepUnwind]
    obtain ⟨goes, only⟩ := Thread.Goes.only taken (by simp [frames])
    exact ⟨_, goes, only, .inl ⟨_, .falling rfl rfl, there⟩⟩
  | falling frames control =>
    have taken : t.step? m.world m.threads.length m.outcome? = some ⟨.release a.storage,
        t.fail base panic, [], []⟩ := by
      simp [Thread.step?, frames, control, Thread.stepUnwind]
    obtain ⟨goes, only⟩ := Thread.Goes.only taken (by simp [frames])
    exact ⟨_, goes, only, .inr ⟨rfl, rfl, rfl⟩⟩

end Falls

/-- While the callback is under way, its thread has taken one of its steps after the other, and the
storage holds what the accesses up to there have made of the blob. -/
theorem Machine.Beside.falls {m₀ m : Machine} {place : Nat} {own : List Pace} {t : Thread}
    {a : Accessor} {xs : List Access} {bad : Action} {later : List Action} {base : List Frame}
    {panic : Panic} {blob : Blob} (run : Beside place m₀ own m) (locked : m₀.Locked)
    (orderly : m₀.Orderly) (found : m₀.threads[place]? = some t)
    (frames : t.frames = .callback a (xs.map .access ++ bad :: later) :: base)
    (control : t.control = .run) (write : a.mode = .write)
    (there : m₀.world.store.blob? a.storage = some blob) (doomed : Doomed blob xs bad panic)
    (short : own.length < 4 * xs.length + 4) : ∃ x done, m.threads[place]? = some x ∧
      Falls a xs bad later base panic x own.length done ∧
      m.world.store.blob? a.storage = some (AccessMode.write.result done blob) := by
  induction run with
  | refl => exact ⟨t, [], found, .ready [] xs rfl frames control, there⟩
  | own run y r' found' goes ih =>
    rw [List.length_append, List.length_singleton] at short ⊢
    obtain ⟨x, done, foundx, falls, now⟩ := ih (by omega)
    obtain rfl := Option.some.inj (found'.symm.trans foundx)
    obtain ⟨r, -, only, ⟨done', falls', now'⟩ | ⟨last, -⟩⟩ := falls.step doomed write now
    · obtain rfl := only r' goes
      exact ⟨_, done', getElem?_stepped found' r', falls', now'⟩
    · omega
  | aside run move ih =>
    obtain ⟨x, done, foundx, falls, now⟩ := ih short
    obtain ⟨left, mem⟩ := falls.exists_callback
    obtain ⟨seen, reaches⟩ := run.reaches
    exact ⟨x, done, move.thread foundx, falls,
      move.blob? (reaches.locked locked) (reaches.orderly orderly) foundx mem now⟩

/-- A step that puts contents into a storage, other than by a reading access. -/
def Pace.Writes (id : StorageId) (x : Pace) : Prop :=
  (∃ blob, x.step.deed = .setBlob id blob) ∧
    ∀ a y, x.thread.access? = some (a, y) → y.writes = true

/-- Contents stay as they are until somebody writes. -/
theorem Hold.blob?_of_unwritten {w : World} {t : Thread} {r : Step} {id : StorageId} {blob : Blob}
    (h : Hold w t r) (there : w.store.blob? id = some blob) (unwritten : ¬ Pace.Writes id ⟨t, r⟩) :
    (w.after r.deed).store.blob? id = some blob := by
  have apart {other : StorageId} {new : Blob} (deed : r.deed = .setBlob other new)
      (writes : ∀ a y, t.access? = some (a, y) → y.writes = true) : id ≠ other := by
    rintro rfl
    exact unwritten ⟨⟨new, deed⟩, writes⟩
  have lock {other : StorageId} {f : Lock → Lock} (same : w.after r.deed =
      w.withStore (w.store.updateCell other fun cell => { cell with lock := f cell.lock })) :
      (w.after r.deed).store.blob? id = some blob := by
    rw [same]
    have kept := World.blob?_updateCell_of_lock w other id
      (f := fun cell => { cell with lock := f cell.lock }) fun _ => rfl
    exact kept.trans there
  cases h with
  | aloof _ _ _ _ _ _ _ deed | linger _ _ _ _ _ _ _ _ deed =>
    exact World.blob?_after_of_aloof deed there
  | access a x outer old new reply frames run found done =>
    have access : t.access? = some (a, x) := by simp [Thread.access?, frames, run]
    by_cases reads : x.writes = false ∧ a.storage = id
    · have hold : Hold w t ⟨.setBlob a.storage new, t.give outer reply, [], []⟩ :=
        .access a x outer old new reply frames run found done
      rw [hold.blob?_of_access there access reads.2, AccessMode.apply_of_reads reads.1]
    · have other : id ≠ a.storage := by
        rintro rfl
        refine apart rfl (fun b y access' => ?_) rfl
        obtain ⟨-, rfl⟩ := Prod.mk.inj (Option.some.inj (access.symm.trans access'))
        simpa using reads
      rw [World.blob?_after_setBlob, if_neg other, there]
  | refuse => exact there
  | poke c outer target new reply frames =>
    have other : id ≠ target :=
      apart rfl fun a y access => by simp [Thread.access?, frames] at access
    rw [World.blob?_after_setBlob, if_neg other, there]
  | lend a => exact lock (f := Lock.acquire a.mode) rfl
  | release a _ _ _ _ deed => exact lock (f := Lock.release) (by rw [deed]; rfl)

namespace Machine

/-- A storage that is held by callbacks under way at most, with what it shows to others. -/
structure Shows (m : Machine) (id : StorageId) (blob : Blob) : Prop where
  contents : m.world.store.blob? id = some blob
  /-- No lock has been left behind. -/
  free : ∀ mode : AccessMode, (∀ other : AccessMode, mode = .write ∨ other = .write →
    m.borrowers other id = 0) → m.world.store.canAcquire mode id = true
  /-- Through whatever handle, a snapshot is answered with the contents. -/
  snapshot : ∀ (j : Nat) (y : Thread) name outer, m.threads[j]? = some y →
    y.frames = .command (.store (.snapshot name)) :: outer → y.control = .run →
    m.world.bound name = .ok id → m.borrowers .write id = 0 →
    y.Goes m ⟨.nothing, y.give outer (.contents blob), [], []⟩ ∧
      ∀ r, y.Goes m r → r = ⟨.nothing, y.give outer (.contents blob), [], []⟩
  /-- An instruction of whatever stream is lent the storage. -/
  lends : ∀ (j : Nat) (y : Thread) (b : Accessor) actions outer, m.threads[j]? = some y →
    y.frames = .borrow b actions :: outer → y.control = .run → b.storage = id →
    (∀ other : AccessMode, b.mode = .write ∨ other = .write → m.borrowers other id = 0) →
    y.Goes m ⟨.acquire b.mode b.storage, y.goto (.callback b actions :: outer), [], []⟩ ∧
      ∀ r, y.Goes m r →
        r = ⟨.acquire b.mode b.storage, y.goto (.callback b actions :: outer), [], []⟩
  /-- Its accesses are to these contents. -/
  answers : ∀ (j : Nat) (y : Thread) (b : Accessor) x outer, m.threads[j]? = some y →
    y.frames = .action b (.access x) :: outer → y.control = .run → b.storage = id →
    ∃ r : Step, y.Goes m r ∧ (∀ r', y.Goes m r' → r' = r) ∧
      r.thread = (match b.perform m.world blob x with
        | .ok (reply, _) => y.give outer reply
        | .error panic => y.fail outer panic)

variable {m m' m₀ : Machine} {id : StorageId} {blob : Blob}

theorem Locked.canAcquire_of_unborrowed (h : m.Locked)
    (there : m.world.store.blob? id = some blob) {mode : AccessMode}
    (unborrowed : ∀ other, mode = .write ∨ other = .write → m.borrowers other id = 0) :
    m.world.store.canAcquire mode id = true := by
  obtain ⟨cell, found, -⟩ := Option.map_eq_some_iff.1 there
  have none (other : AccessMode) (conflict : mode = .write ∨ other = .write) :
      cell.lock.holders other = 0 := by
    rw [← World.lockAt_of_cell? found, ← h other id]
    exact unborrowed other conflict
  simp only [Store.canAcquire, found]
  exact Lock.canAcquire_iff.2 ⟨none .write (.inr rfl), fun write => none .read (.inl write)⟩

theorem Locked.shows (h : m.Locked) (there : m.world.store.blob? id = some blob) :
    m.Shows id blob where
  contents := there
  free _ unborrowed := h.canAcquire_of_unborrowed there unborrowed
  snapshot j y name outer found frames run bound unwritten := by
    have free : m.world.store.canAcquire .read id = true :=
      h.canAcquire_of_unborrowed there fun other conflict => by
        obtain conflict | rfl := conflict
        · cases conflict
        · exact unwritten
    have answer : m.world.storeCommand? (.snapshot name) =
        .ok (some (.contents blob, .nothing)) := by
      simp only [World.storeCommand?, bound, bind, Except.bind, World.readable?, free, there]
      rfl
    have taken : y.step? m.world m.threads.length m.outcome? =
        some ⟨.nothing, y.give outer (.contents blob), [], []⟩ := by
      simp only [Thread.step?, frames, run, Thread.stepFrame?, Thread.stepCommand?, answer]
    exact Thread.Goes.only taken (by simp [frames])
  lends j y b actions outer found frames run storage unborrowed := by
    have free : m.world.store.canAcquire b.mode b.storage = true := by
      rw [storage]
      exact h.canAcquire_of_unborrowed there unborrowed
    have taken : y.step? m.world m.threads.length m.outcome? =
        some ⟨.acquire b.mode b.storage, y.goto (.callback b actions :: outer), [], []⟩ := by
      simp only [Thread.step?, frames, run, Thread.stepFrame?, free, if_true]
    exact Thread.Goes.only taken (by simp [frames])
  answers j y b x outer found frames run storage := by
    subst storage
    cases done : b.perform m.world blob x with
    | ok result =>
      obtain ⟨reply, new⟩ := result
      have taken : y.step? m.world m.threads.length m.outcome? =
          some ⟨.setBlob b.storage new, y.give outer reply, [], []⟩ := by
        simp [Thread.step?, frames, run, Thread.stepFrame?, Thread.stepAction?, there, done]
      obtain ⟨goes, only⟩ := Thread.Goes.only taken (by simp [frames])
      exact ⟨_, goes, only, rfl⟩
    | error panic =>
      have taken : y.step? m.world m.threads.length m.outcome? = some (y.raise outer panic) := by
        simp [Thread.step?, frames, run, Thread.stepFrame?, Thread.stepAction?, there, done]
      obtain ⟨goes, only⟩ := Thread.Goes.only taken (by simp [frames])
      exact ⟨_, goes, only, rfl⟩

/-- In a run in which nobody writes to a storage, its contents stay. -/
theorem Recounts.blob? {trace : List Pace} {seen : List Occurrence} (run : m₀.Recounts trace seen m)
    (there : m₀.world.store.blob? id = some blob) (unwritten : ∀ x ∈ trace, ¬ x.Writes id) :
    m.world.store.blob? id = some blob := by
  induction run with
  | refl => exact there
  | go run i t r found goes ih =>
    rw [List.forall_mem_append] at unwritten
    exact goes.hold.blob?_of_unwritten (ih unwritten.1) (unwritten.2 _ List.mem_cons_self)
  | call _ command ih => exact ih unwritten
  | offer _ s message known accepted ih =>
    exact World.blob?_after_of_aloof (d := .push s message) trivial (ih unwritten)
  | revise _ i t t' found revised ih => exact ih unwritten

/-- A writing callback that is over leaves its storage to everybody. -/
theorem Locked.canAcquire_of_release (h : m.Locked) {i : Nat} {t : Thread}
    (found : m.threads[i]? = some t) {a : Accessor} {left : List Action}
    (mem : .callback a left ∈ t.frames) (write : a.mode = .write) (mode : AccessMode) :
    (m.world.after (.release a.storage)).store.canAcquire mode a.storage = true := by
  have held : 0 < (m.world.lockAt a.storage).holders .write := by
    rw [← h .write a.storage]
    refine lt_of_lt_of_le ?_ (countP_le_countFrames found _)
    exact List.countP_pos_iff.2 ⟨_, mem, by simp [Frame.borrows, write]⟩
  cases there : m.world.store.cell? a.storage with
  | none =>
    rw [World.lockAt, there] at held
    exact absurd held (Nat.lt_irrefl 0)
  | some cell =>
    rw [World.lockAt_of_cell? there] at held
    have lock : cell.lock = .exclusive := by
      cases lock : cell.lock <;> rw [lock] at held <;>
        first | rfl | exact absurd held (Nat.lt_irrefl 0)
    rw [World.after, World.withStore, Store.release, Store.canAcquire, World.cell?_updateCell,
      if_pos rfl, there]
    simp only [Option.map_some, lock]
    cases mode <;> rfl

end Machine

/-- A panic goes up by one frame at a time, unless that catches it. -/
theorem Thread.goes_up {m : Machine} {t : Thread} {frame : Frame} {outer : List Frame}
    {panic : Panic} (frames : t.frames = frame :: outer) (control : t.control = .unwind panic)
    (through : frame ≠ .catching) : t.Goes m (t.stepUnwind panic frame outer) ∧
      (∀ r, t.Goes m r → r = t.stepUnwind panic frame outer) ∧
      (t.stepUnwind panic frame outer).thread.frames = outer ∧
      (t.stepUnwind panic frame outer).thread.control = .unwind panic := by
  refine ⟨.step (by simp [step?, frames, control]), fun r goes => goes.of_unwind frames control, ?_⟩
  cases frame with
  | catching => exact (through rfl).elim
  | _ => exact ⟨rfl, rfl⟩

namespace Machine

variable {m m₀ : Machine} {place : Nat} {own : List Pace} {t : Thread}

/-- As many frames are gone as the thread has taken steps. -/
theorem Beside.goes_up (run : Beside place m₀ own m) (found : m₀.threads[place]? = some t)
    {upper outer : List Frame} {panic : Panic} (frames : t.frames = upper ++ outer)
    (through : .catching ∉ upper) (control : t.control = .unwind panic)
    (short : own.length ≤ upper.length) : ∃ x, m.threads[place]? = some x ∧
      x.frames = upper.drop own.length ++ outer ∧ x.control = .unwind panic := by
  induction run with
  | refl => exact ⟨t, found, frames, control⟩
  | @own m₁ own run y r found' goes ih =>
    rw [List.length_append, List.length_singleton] at short ⊢
    obtain ⟨x, foundx, stack, unwinds⟩ := ih (by omega)
    obtain rfl := Option.some.inj (found'.symm.trans foundx)
    have inside : own.length < upper.length := by omega
    rw [List.drop_eq_getElem_cons inside] at stack
    have here : upper[own.length] ≠ .catching := fun same =>
      through (same ▸ List.getElem_mem inside)
    obtain ⟨-, only, stack', unwinds'⟩ := Thread.goes_up (m := m₁) stack unwinds here
    rw [only r goes]
    exact ⟨_, getElem?_stepped found' _, stack', unwinds'⟩
  | aside run move ih =>
    obtain ⟨x, foundx, stack, unwinds⟩ := ih short
    exact ⟨x, move.thread foundx, stack, unwinds⟩

/-- A storage right after a callback has panicked: the panic goes on to the drain of the stream. -/
structure Freed (m : Machine) (place : Nat) (id : StorageId) (blob : Blob) (panic : Panic) (s : Nat)
    (base outer : List Frame) : Prop where
  unwinds : ∃ x, m.threads[place]? = some x ∧ x.frames = base ∧ x.control = .unwind panic
  free : ∀ mode, m.world.store.canAcquire mode id = true
  /-- Whatever happens then, the storage shows the contents until somebody writes. -/
  shows : ∀ trace seen m', m.Recounts trace seen m' → (∀ x ∈ trace, ¬ x.Writes id) →
    m'.Shows id blob
  /-- The thread is never held up on its way out of the drain. -/
  goes : ∀ own m', Beside place m own m' → own.length < 3 →
    ∃ x r, m'.threads[place]? = some x ∧ x.Goes m' r
  /-- The drain gives up the guard. -/
  drain : ∀ own m', Beside place m own m' → 3 ≤ own.length → ∃ before after m₂,
    own = before ++ after ∧ before.length = 3 ∧ Beside place m before m₂ ∧
    Beside place m₂ after m' ∧ m₂.world.executingAt s = false ∧
    ∃ x, m₂.threads[place]? = some x ∧ x.frames = outer ∧ x.control = .unwind panic

/-- What becomes of a storage that has been lent to a callback which panics after some accesses. -/
structure Salvaged (m₀ : Machine) (place : Nat) (a : Accessor) (xs : List Access) (blob : Blob)
    (panic : Panic) (s : Nat) (base outer : List Frame) : Prop where
  /-- The accesses take effect one after another, and those that fail not at all. -/
  effects : ∀ done x todo, done ++ x :: todo = xs → ∀ w : World, ∃ reply new,
    a.perform w (AccessMode.write.result done blob) x = .ok (reply, new) ∧
    AccessMode.write.result (done ++ [x]) blob = new ∧
    ∀ failure, reply = .failed failure → new = AccessMode.write.result done blob
  shape : (AccessMode.write.result xs blob).shape = blob.shape
  dataType : (AccessMode.write.result xs blob).dataType = blob.dataType
  size : (AccessMode.write.result xs blob).byteSize = blob.byteSize
  /-- While the callback is under way its thread can go on, and nobody else changes the storage. -/
  during : ∀ own m, Beside place m₀ own m → own.length < 4 * xs.length + 4 →
    ∃ x inner left done, m.threads[place]? = some x ∧
      x.frames = inner ++ .callback a left :: base ∧ (∃ r, x.Goes m r) ∧ done <+: xs ∧
      m.world.store.blob? a.storage = some (AccessMode.write.result done blob)
  /-- Then it is over, with the effect of all accesses before the panic and of nothing else. -/
  past : ∀ own m, Beside place m₀ own m → 4 * xs.length + 4 ≤ own.length → ∃ before after m₁,
    own = before ++ after ∧ before.length = 4 * xs.length + 4 ∧ Beside place m₀ before m₁ ∧
    Beside place m₁ after m ∧
    m₁.Freed place a.storage (AccessMode.write.result xs blob) panic s base outer

/-- The frames from a phase down to the drain that it belongs to. -/
def phaseToDrain (i : Instruction) (p : Phase) (moves : List Move) (phases : List Phase) (e : Nat) :
    List Frame :=
  [.phase i p moves, .run i (p :: phases), .drain i.stream .execute e]

theorem Freed.of_release {t : Thread} (locked : m.Locked) (found : m.threads[place]? = some t)
    {a : Accessor} {left : List Action} (mem : .callback a left ∈ t.frames)
    (write : a.mode = .write) {blob : Blob}
    (there : m.world.store.blob? a.storage = some blob) {panic : Panic}
    {i : Instruction} {p : Phase} {moves : List Move} {phases : List Phase} {e : Nat}
    {outer : List Frame} {m₁ : Machine} (locked₁ : m₁.Locked) (released : m₁ = m.stepped place
      ⟨.release a.storage, t.fail (phaseToDrain i p moves phases e ++ outer) panic, [], []⟩) :
    m₁.Freed place a.storage blob panic i.stream (phaseToDrain i p moves phases e ++ outer)
      outer := by
  have now : m₁.threads[place]? =
      some (t.fail (phaseToDrain i p moves phases e ++ outer) panic) := by
    rw [released]
    exact getElem?_stepped found _
  have through : .catching ∉ phaseToDrain i p moves phases e := by simp [phaseToDrain]
  have kept : m₁.world.store.blob? a.storage = some blob := by
    have lock := World.blob?_updateCell_of_lock m.world a.storage a.storage
      (f := fun cell => { cell with lock := cell.lock.release }) fun _ => rfl
    rw [released]
    exact lock.trans there
  refine ⟨⟨_, now, rfl, rfl⟩, ?_, fun trace seen m' run unwritten => ?_, fun own m' run short => ?_,
    fun own m' run long => ?_⟩
  · rw [released]
    exact locked.canAcquire_of_release found mem write
  · exact (run.reaches.locked locked₁).shows (run.blob? kept unwritten)
  · obtain ⟨x, foundx, stack, unwinds⟩ :=
      run.goes_up now rfl through rfl (by simp [phaseToDrain]; omega)
    have inside : own.length < (phaseToDrain i p moves phases e).length := short
    rw [List.drop_eq_getElem_cons inside] at stack
    have here : (phaseToDrain i p moves phases e)[own.length] ≠ .catching := fun same =>
      through (same ▸ List.getElem_mem inside)
    exact ⟨x, _, foundx, (Thread.goes_up stack unwinds here).1⟩
  · obtain ⟨m₂, ⟨x, r⟩, first, foundx, goes, whole, rest⟩ := run.cut_at (n := 2) (by omega)
    have two : (own.take 2).length = 2 := List.length_take_of_le (by omega)
    obtain ⟨y, foundy, stack, unwinds⟩ :=
      first.goes_up now rfl through rfl (by rw [two]; simp [phaseToDrain])
    obtain rfl : x = y := Option.some.inj (foundx.symm.trans foundy)
    rw [two] at stack
    obtain rfl : r = x.stepUnwind panic (.drain i.stream .execute e) outer :=
      goes.of_unwind stack unwinds
    refine ⟨own.take 3, own.drop 3, _, (List.take_append_drop 3 own).symm,
      List.length_take_of_le long, whole, rest, ?_, _, getElem?_stepped foundx _, rfl, rfl⟩
    change (m₂.world.after (.setExecuting i.stream false)).executingAt i.stream = false
    rw [World.executingAt_setExecuting, if_pos rfl]
    cases m₂.world.streams[i.stream]? <;> rfl

/-- A callback under way in an instruction that a drain runs. -/
theorem Orderly.base_of_callback (h : m.Orderly) {t : Thread} (found : m.threads[place]? = some t)
    {a : Accessor} {left : List Action} {base : List Frame}
    (frames : t.frames = .callback a left :: base) :
    ∃ i p moves phases e outer, base = phaseToDrain i p moves phases e ++ outer := by
  have nested := h.nested t (List.mem_of_getElem? found)
  rw [frames] at nested
  obtain ⟨⟨i, p, moves, _, rfl, -⟩, ⟨phases, _, rfl⟩, ⟨-, -, e, outer, rfl⟩, -⟩ := nested
  exact ⟨i, p, moves, phases, e, outer, rfl⟩

end Machine

/-- A callback that panics while it writes, at any moment of any run of a machine. -/
theorem salvaged_of_panic {config : MachineConfig} {registry : Registry} {w : World}
    (created : World.create config registry = .ok w) {m₀ : Machine} {past : List Occurrence}
    (earlier : Machine.Reaches ⟨w, []⟩ past m₀) {place : Nat} {t : Thread}
    (found : m₀.threads[place]? = some t) {a : Accessor} {xs : List Access} {bad : Action}
    {later : List Action} {base : List Frame}
    (frames : t.frames = .callback a (xs.map .access ++ bad :: later) :: base)
    (control : t.control = .run) (write : a.mode = .write) {blob : Blob}
    (there : m₀.world.store.blob? a.storage = some blob) {panic : Panic}
    (doomed : Doomed blob xs bad panic) : ∃ i p moves phases e outer,
      base = Machine.phaseToDrain i p moves phases e ++ outer ∧
      m₀.Salvaged place a xs blob panic i.stream base outer := by
  have locked := earlier.locked (.init created)
  have orderly := earlier.orderly (.init created)
  obtain ⟨i, p, moves, phases, e, outer, rfl⟩ := orderly.base_of_callback found frames
  obtain ⟨shape, dataType, size⟩ := AccessMode.write.result_same xs blob
  refine ⟨i, p, moves, phases, e, outer, rfl,
    fun _ _ _ split w => doomed.effects split write w, shape, dataType, size, ?_, ?_⟩
  · intro own m run short
    obtain ⟨x, done, foundx, falls, now⟩ :=
      run.falls locked orderly found frames control write there doomed short
    obtain ⟨⟨inner, left, stack⟩, part, -⟩ := falls.within
    obtain ⟨r, goes, -⟩ := falls.step doomed write now
    exact ⟨x, inner, left, done, foundx, stack, ⟨r, goes⟩, part, now⟩
  · intro own m run long
    obtain ⟨m₁, ⟨x, r⟩, first, foundx, goes, whole, rest⟩ :=
      run.cut_at (n := 4 * xs.length + 3) (by omega)
    have length : (own.take (4 * xs.length + 3)).length = 4 * xs.length + 3 :=
      List.length_take_of_le (by omega)
    obtain ⟨y, done, foundy, falls, now⟩ :=
      first.falls locked orderly found frames control write there doomed (by omega)
    obtain rfl : x = y := Option.some.inj (foundx.symm.trans foundy)
    rw [length] at falls
    obtain ⟨left, mem⟩ := falls.exists_callback
    obtain ⟨r', -, only, ⟨done', beyond, -⟩ | ⟨-, all, rfl⟩⟩ := falls.step doomed write now
    · exact absurd beyond.within.2.2 (Nat.lt_irrefl _)
    obtain rfl := only r goes
    rw [all] at now
    obtain ⟨_, reaches⟩ := first.reaches
    obtain ⟨_, reaches₁⟩ := whole.reaches
    refine ⟨own.take (4 * xs.length + 4), own.drop (4 * xs.length + 4), _,
      (List.take_append_drop _ own).symm, List.length_take_of_le (by omega), whole, rest, ?_⟩
    exact .of_release (reaches.locked locked) foundx mem write now (reaches₁.locked locked) rfl

/-- Two words are written, a copy fails for its size, and one byte is set. -/
def strikingAccesses : List Access :=
  [.writeWords [2, 3], .copyFrom [1], .setByte 0 7, .readWords]

/-- The callback that makes these accesses goes out of range then. -/
def striking : Message :=
  .lending .host ⟨"a", 0⟩ (strikingAccesses.map .access ++
    [.access (.setByte 8 1), .access (.writeWords [9, 9])])

def strikingReady : Machine :=
  (⟨idlePair, []⟩ : Machine).performed (.store (.newBlob "a" (.words ⟨[2]⟩ [1, 1])))

def strikingCalled : Machine :=
  ⟨strikingReady.world.after (.push 0 striking), strikingReady.threads ++ [.ofCommand .schedule]⟩

/-- The callback is invoked. -/
def struck : Machine := (strikingCalled.trail (List.replicate 10 1)).2

theorem salvaged_of_striking : ∃ past t outer,
    World.create {} .empty = .ok idlePair ∧ Machine.Reaches ⟨idlePair, []⟩ past struck ∧
    struck.threads[1]? = some t ∧ t.control = .run ∧
    t.frames = .callback ⟨⟨.blob "a", 0⟩, .write, .host, 0⟩ (strikingAccesses.map .access ++
        .access (.setByte 8 1) :: [.access (.writeWords [9, 9])]) ::
      (Machine.phaseToDrain ⟨striking, 0, .inferred⟩ .compute [] [] 0 ++ outer) ∧
    struck.world.store.blob? ⟨.blob "a", 0⟩ = some ⟨⟨[2]⟩, .f32, [1, 0, 0, 0, 1, 0, 0, 0]⟩ ∧
    AccessMode.write.result strikingAccesses ⟨⟨[2]⟩, .f32, [1, 0, 0, 0, 1, 0, 0, 0]⟩ =
      ⟨⟨[2]⟩, .f32, [7, 0, 0, 0, 3, 0, 0, 0]⟩ ∧
    struck.Salvaged 1 ⟨⟨.blob "a", 0⟩, .write, .host, 0⟩ strikingAccesses
      ⟨⟨[2]⟩, .f32, [1, 0, 0, 0, 1, 0, 0, 0]⟩ (.storage (.indexOutOfBounds 8 8)) 0
      (Machine.phaseToDrain ⟨striking, 0, .inferred⟩ .compute [] [] 0 ++ outer) outer := by
  have created : World.create {} .empty = .ok idlePair := rfl
  have nothing : Machine.Reaches ⟨idlePair, []⟩ [] ⟨idlePair, []⟩ := .refl
  obtain ⟨_, ready⟩ := nothing.performed (.store (.newBlob "a" (.words ⟨[2]⟩ [1, 1])))
  have called : Machine.Reaches ⟨idlePair, []⟩ _ strikingCalled :=
    (ready.move (.offer 0 striking (by decide) rfl)).move (.call .schedule)
  have earlier : Machine.Reaches ⟨idlePair, []⟩ _ struck :=
    called.trans (Machine.Recounts.refl.trail (List.replicate 10 1)).reaches
  obtain ⟨t, found, frames, run⟩ : ∃ t, struck.threads[1]? = some t ∧
      t.frames = .callback ⟨⟨.blob "a", 0⟩, .write, .host, 0⟩ (strikingAccesses.map .access ++
          .access (.setByte 8 1) :: [.access (.writeWords [9, 9])]) ::
        (Machine.phaseToDrain ⟨striking, 0, .inferred⟩ .compute [] [] 0 ++ [.schedule [1] 0]) ∧
      t.control = .run := ⟨_, rfl, rfl, rfl⟩
  have there : struck.world.store.blob? ⟨.blob "a", 0⟩ =
      some ⟨⟨[2]⟩, .f32, [1, 0, 0, 0, 1, 0, 0, 0]⟩ := by decide +kernel
  have doomed : Doomed ⟨⟨[2]⟩, .f32, [1, 0, 0, 0, 1, 0, 0, 0]⟩ strikingAccesses
      (.access (.setByte 8 1)) (.storage (.indexOutOfBounds 8 8)) := by
    refine ⟨fun index value mem => ?_, .outside 8 1 (by decide)⟩
    obtain ⟨rfl, -⟩ : index = 0 ∧ value = 7 := by simpa [strikingAccesses] using mem
    decide
  obtain ⟨i, p, moves, phases, e, outer, base, salvaged⟩ :=
    salvaged_of_panic created earlier found frames run rfl there doomed
  cases base
  exact ⟨_, t, _, created, earlier, found, run, frames, there, by decide +kernel, salvaged⟩

end StreamMachine
