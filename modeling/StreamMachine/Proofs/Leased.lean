import StreamMachine.Proofs.Lease
import StreamMachine.Proofs.Onset

/-! A callback under way, whatever happens to its handle. It may rebind that itself, or run other
streams whose instructions do so. -/
namespace StreamMachine

variable {i : Instruction} {mode : AccessMode} {category : StreamCategory} {outer : List Frame}
  {m : Machine} {t : Thread}

/-- The callback of an instruction that lends its blob, after the given steps of its thread since the
compute of the instruction has begun: the storage that it works on, and who else gets at that. -/
structure Leased (c : Call) (m₀ m : Machine) (i : Instruction) (mode : AccessMode) (own : List Pace)
    (x : Thread) (a : Accessor) : Prop where
  /-- The storage is the one that the handle was bound to when the compute began. -/
  bound : ∃ handle actions, i.lends? mode = some (handle, actions) ∧
    m₀.world.store.binding? handle = some a.storage
  ofMode : a.mode = mode
  /-- It holds what it held then, with the accesses of the callback since. -/
  contents : ∃ blob, m₀.world.store.blob? a.storage = some blob ∧
    m.world.store.blob? a.storage = some (mode.result (accessesAt (c.outer.length + 2) own) blob)
  steady : mode = .read → m.world.store.blob? a.storage = m₀.world.store.blob? a.storage
  /-- The next access of the callback goes to that storage, and changes nothing besides. -/
  access : ∀ b y rest, x.frames = .action b (.access y) :: rest → x.control = .run →
    (under rest).length = c.outer.length + 2 → b = a ∧ ∃ r blob,
      x.Goes m r ∧ (∀ r', x.Goes m r' → r' = r) ∧
      m.world.store.blob? a.storage = some blob ∧
      (m.world.after r.deed).store.blob? a.storage = some (mode.apply blob y) ∧
      r.thread = (match a.perform m.world blob y with
        | .ok (reply, _) => x.give rest reply
        | .error panic => x.fail rest panic) ∧
      ∀ resource, resource ≠ .storage a.storage →
        (m.world.after r.deed).view resource = m.world.view resource
  /-- Nobody takes the storage in a mode that does not go with that of the callback. -/
  locked : ∀ other, mode = .write ∨ other = .write →
    m.world.store.canAcquire other a.storage = false
  /-- A step within the callback that needs to never returns. -/
  stuck : ∀ frame rest other, x.frames = frame :: rest → x.control = .run →
    frame.Needs m.world other a.storage → mode = .write ∨ other = .write →
    ∀ more m', c.Follows m more m' → more = [] ∧ m' = m
  /-- An instruction that begins its compute now takes the storage that its handle is bound to now. -/
  later : ∀ j y i' mode' category' outer' handle actions id, m.threads[j]? = some y →
    y.frames = .run i' [.compute] :: outer' → y.control = .run →
    i'.behavior = .lending mode' category' → i'.lends? mode' = some (handle, actions) →
    m.world.store.binding? handle = some id → ∃ trace m' z,
      Call.Stretch ⟨j, outer', m.threads.length⟩ m trace m' ∧ m'.world = m.world ∧
      m'.threads[j]? = some z ∧ z.control = .run ∧ z.frames =
        .borrow ⟨id, mode', m.world.categoryAt i'.stream, m.world.deviceAt i'.stream⟩ actions ::
          i'.lender outer'

/-- What a callback does next with what it has been lent. -/
theorem Machine.Orderly.access_of_lent {place : Nat} (orderly : m.Orderly)
    (found : m.threads[place]? = some t) {inner base : List Frame} {a b : Accessor}
    {left : List Action} (stack : t.frames = inner ++ .callback a left :: base) {blob : Blob}
    (now : m.world.store.blob? a.storage = some blob) {y : Access} {rest : List Frame}
    (frames : t.frames = .action b (.access y) :: rest) (run : t.control = .run)
    (depth : (under rest).length = base.length) : b = a ∧ ∃ r, t.Goes m r ∧
      (∀ r', t.Goes m r' → r' = r) ∧
      (m.world.after r.deed).store.blob? a.storage = some (a.mode.apply blob y) ∧
      r.thread = (match a.perform m.world blob y with
        | .ok (reply, _) => t.give rest reply
        | .error panic => t.fail rest panic) ∧
      ∀ resource, resource ≠ .storage a.storage →
        (m.world.after r.deed).view resource = m.world.view resource := by
  have lent : lent? rest = some b := by
    have nested := orderly.nested t (List.mem_of_getElem? found)
    rw [frames] at nested
    exact nested.1.1
  obtain ⟨upper, rfl⟩ : ∃ upper, rest = upper ++ .callback a left :: base := by
    rw [frames] at stack
    cases inner with
    | nil => cases stack
    | cons f inner =>
      cases stack
      exact ⟨inner, rfl⟩
  obtain ⟨rfl, -⟩ | ⟨-, above⟩ := lent?_append lent
  · refine ⟨rfl, ?_⟩
    have access : t.access? = some (b, y) := by simp [Thread.access?, frames, run]
    have only {r r' : Step} (goes : t.Goes m r) (goes' : t.Goes m r') : r' = r :=
      Option.some.inj ((goes'.of_frame frames run (by simp)).symm.trans
        (goes.of_frame frames run (by simp)))
    cases done : b.perform m.world blob y with
    | ok result =>
      obtain ⟨reply, new⟩ := result
      have goes : t.Goes m ⟨.setBlob b.storage new,
          t.give (upper ++ .callback b left :: base) reply, [], []⟩ :=
        .step (by simp [Thread.step?, frames, run, Thread.stepFrame?, Thread.stepAction?, now, done])
      refine ⟨_, goes, fun r' => only goes, goes.hold.blob?_of_access now access rfl, rfl, ?_⟩
      exact fun resource other => World.view_after_of_notMem other
    | error panic =>
      have goes : t.Goes m (t.raise (upper ++ .callback b left :: base) panic) :=
        .step (by simp [Thread.step?, frames, run, Thread.stepFrame?, Thread.stepAction?, now, done])
      exact ⟨_, goes, fun r' => only goes, goes.hold.blob?_of_access now access rfl, rfl,
        fun resource other => rfl⟩
  · omega

/-- The callback of an instruction since the moment at which the compute of that began. -/
theorem Call.Follows.leased {c : Call} {m₀ : Machine} {own : List Pace}
    (run : c.Follows m₀ own m) (locked₀ : m₀.Locked) (orderly₀ : m₀.Orderly) {start : Thread}
    (found : m₀.threads[c.place]? = some start) (alone : c.floor = m₀.threads.length)
    (frames : start.frames = .run i [.compute] :: c.outer) (control : start.control = .run)
    (behavior : i.behavior = .lending mode category) {x : Thread}
    (now : m.threads[c.place]? = some x) {inner base : List Frame} {a : Accessor}
    {left : List Action} (stack : x.frames = inner ++ .callback a left :: base)
    (depth : base.length = c.outer.length + 2) : Leased c m₀ m i mode own x a := by
  obtain ⟨seen, reaches⟩ := run.reaches
  have locked := reaches.locked locked₀
  have orderly := reaches.orderly orderly₀
  obtain ⟨y, foundy, lease⟩ :=
    run.lease (.init found alone) locked₀ orderly₀ found frames control behavior
  obtain rfl := Option.some.inj (now.symm.trans foundy)
  obtain ⟨actions, blob, lends, before, contents, -⟩ := lease.of_callback stack depth
  have mem : .callback a left ∈ x.frames :=
    stack ▸ List.mem_append_right inner List.mem_cons_self
  have held (other : AccessMode) (conflict : mode = .write ∨ other = .write) :
      m.world.store.canAcquire other a.storage = false :=
    locked.canAcquire now mem (lends.ofMode ▸ conflict)
  refine ⟨lends.bound.imp fun handle found => ⟨actions, found⟩, lends.ofMode,
    ⟨blob, before, contents⟩, fun reads => ?_, fun b y rest top running under => ?_, held, ?_, ?_⟩
  · rw [contents, before, reads, AccessMode.result_read]
  · obtain ⟨rfl, r, goes, only, changed, answer, rest'⟩ :=
      orderly.access_of_lent now stack contents top running (under.trans depth.symm)
    exact ⟨rfl, r, _, goes, only, contents, lends.ofMode ▸ changed, answer, rest'⟩
  · intro frame rest other top running needs conflict more m' later
    have waits := needs.waits (held other conflict) top running
    refine later.of_still (run.awaited (.init found alone)) now (needs.busy top) fun _ => ⟨waits, ?_⟩
    rw [top]
    rintro _ ⟨rfl⟩
    exact needs.not_decides
  · intro j y i' mode' category' outer' handle actions id found' top running behavior' lent bound
    exact stretch_to_waiting (c := ⟨j, outer', m.threads.length⟩) found' top running
      (orderly.inferred found' top) behavior' lent bound

/-- Any callback that is under way in the compute of an instruction of the kinds that lend their
blob, at any moment of any command that is run on one thread, whatever has happened before. -/
theorem leased_of_follows {config : MachineConfig} {registry : Registry} {w : World}
    (created : World.create config registry = .ok w) {ready : Machine} {past : List Occurrence}
    (earlier : Machine.Reaches ⟨w, []⟩ past ready) {command : Command} {own : List Pace}
    (run : Call.Follows ⟨ready.threads.length, [], ready.threads.length + 1⟩
      ⟨ready.world, ready.threads ++ [.ofCommand command]⟩ own m) {x : Thread}
    (now : m.threads[ready.threads.length]? = some x) {inner rest : List Frame} {a : Accessor}
    {left : List Action} {moves : List Move}
    (stack : x.frames = inner ++ .callback a left :: .phase i .compute moves :: rest)
    (behavior : i.behavior = .lending mode category) : ∃ outer before m₀ later,
      rest = .run i [.compute] :: outer ∧ own = before ++ later ∧
      Call.Onset ⟨ready.threads.length, [], ready.threads.length + 1⟩
        ⟨ready.world, ready.threads ++ [.ofCommand command]⟩ i [.compute] outer before m₀ ∧
      Call.Follows ⟨ready.threads.length, outer, m₀.threads.length⟩ m₀ later m ∧
      Leased ⟨ready.threads.length, outer, m₀.threads.length⟩ m₀ m i mode later x a := by
  have called := earlier.move (.call command)
  have begun : (ready.threads ++ [Thread.ofCommand command])[ready.threads.length]? =
      some (.ofCommand command) := by simp
  obtain ⟨seen, reaches⟩ := run.reaches
  have orderly := (called.trans reaches).orderly (.init created)
  obtain ⟨phases, outer, rfl, due⟩ : ∃ phases outer, rest = .run i (.compute :: phases) :: outer ∧
      .compute :: phases = i.status.due := by
    have nested := orderly.nested x (List.mem_of_getElem? now)
    rw [stack] at nested
    obtain ⟨-, ⟨phases, outer, rfl⟩, fits, -⟩ := nested.of_append
    exact ⟨phases, outer, rfl, fits.1⟩
  obtain rfl : phases = [] := by
    cases status : i.status <;> rw [status] at due <;> cases due
    rfl
  have split : x.frames = (inner ++ [.callback a left, .phase i .compute moves]) ++
      .run i [.compute] :: outer := by simpa using stack
  have idle : ∀ y, (ready.threads ++ [Thread.ofCommand command])[ready.threads.length]? = some y →
      ∀ f ∈ y.frames, f.Idle := by
    rintro y found
    obtain rfl := Option.some.inj (begun.symm.trans found)
    simp [Thread.ofCommand, Frame.Idle]
  obtain ⟨before, m₀, later, rfl, onset, since⟩ :=
    run.within (.init begun (by simp)) idle now _ split (by simp)
  obtain ⟨start, found, frames, control⟩ := onset.ready
  obtain ⟨seen₀, reaches₀⟩ := onset.run.reaches
  have earlier₀ := called.trans reaches₀
  exact ⟨outer, before, m₀, later, rfl, rfl, onset, since, since.leased
    (earlier₀.locked (.init created)) (earlier₀.orderly (.init created)) found rfl frames control
    behavior now stack (by simp)⟩

/-- A command that a thread of its own runs, for a few steps. -/
def Machine.performed (m : Machine) (command : Command) : Machine :=
  (Machine.run 4 ⟨m.world, m.threads ++ [.ofCommand command]⟩).1

theorem Machine.Reaches.performed {m₀ m : Machine} {seen : List Occurrence} (run : m₀.Reaches seen m)
    (command : Command) : ∃ seen', m₀.Reaches seen' (m.performed command) :=
  ⟨_, (run.move (.call command)).goOn 4⟩

/-- A blob, and a storage that is published. -/
def linkable : Machine :=
  (((⟨idlePair, []⟩ : Machine).performed (.store (.newBlob "a" (.words ⟨[1]⟩ [1])))).performed
    (.store (.newStorage "b" (.words ⟨[1]⟩ [9])))).performed (.store (.publish "late" "b"))

/-- The callback writes, has the other stream link its handle to what is published, and goes on. -/
def straying : List Message :=
  [.lending .host ⟨"a", 0⟩ [.access (.writeWords [2]), .step (.runPending .cpu),
    .access (.writeWords [3]), .access .readWords],
   ⟨⟨"link", 1, .cpu, .lazyReference .cpu⟩, some (.lazyReference ⟨"a", 0⟩ "late")⟩]

/-- Both are pending, one on each stream. -/
def strayingReady : Machine :=
  ⟨(linkable.world.after (.push 0 straying[0])).after (.push 1 straying[1]), linkable.threads⟩

def strayingCalled : Machine :=
  ⟨strayingReady.world, strayingReady.threads ++ [.ofCommand .schedule]⟩

/-- The callback is about to read. -/
def strayed : Machine := (strayingCalled.trail (List.replicate 38 3)).2

theorem leased_of_straying : ∃ past own x left rest,
    World.create {} .empty = .ok idlePair ∧ Machine.Reaches ⟨idlePair, []⟩ past strayingReady ∧
    Call.Follows ⟨3, [], 4⟩ strayingCalled own strayed ∧ strayed.threads[3]? = some x ∧
    x.frames = [.action ⟨⟨.blob "a", 0⟩, .write, .host, 0⟩ (.access .readWords),
      .log .host "read_f32s"] ++ .callback ⟨⟨.blob "a", 0⟩, .write, .host, 0⟩ left ::
        .phase ⟨straying[0], 0, .inferred⟩ .compute [] :: rest ∧
    strayingReady.world.store.binding? ⟨"a", 0⟩ = some ⟨.blob "a", 0⟩ ∧
    strayed.world.store.binding? ⟨"a", 0⟩ = some ⟨.storage "b", 0⟩ ∧
    strayed.world.store.blob? ⟨.blob "a", 0⟩ = some ⟨⟨[1]⟩, .f32, [3, 0, 0, 0]⟩ ∧
    strayed.world.store.blob? ⟨.storage "b", 0⟩ = some ⟨⟨[1]⟩, .f32, [9, 0, 0, 0]⟩ ∧
    ∃ outer before m₀ later, rest = .run ⟨straying[0], 0, .inferred⟩ [.compute] :: outer ∧
      own = before ++ later ∧
      Call.Onset ⟨3, [], 4⟩ strayingCalled ⟨straying[0], 0, .inferred⟩ [.compute] outer before m₀ ∧
      Call.Follows ⟨3, outer, m₀.threads.length⟩ m₀ later strayed ∧
      Leased ⟨3, outer, m₀.threads.length⟩ m₀ strayed ⟨straying[0], 0, .inferred⟩ .write later x
        ⟨⟨.blob "a", 0⟩, .write, .host, 0⟩ := by
  have created : World.create {} .empty = .ok idlePair := rfl
  have nothing : Machine.Reaches ⟨idlePair, []⟩ [] ⟨idlePair, []⟩ := .refl
  obtain ⟨_, first⟩ := nothing.performed (.store (.newBlob "a" (.words ⟨[1]⟩ [1])))
  obtain ⟨_, second⟩ := first.performed (.store (.newStorage "b" (.words ⟨[1]⟩ [9])))
  obtain ⟨_, published⟩ := second.performed (.store (.publish "late" "b"))
  have earlier : Machine.Reaches ⟨idlePair, []⟩ _ strayingReady :=
    (published.move (.offer 0 straying[0] (by decide) rfl)).move
      (.offer 1 straying[1] (by decide) rfl)
  have run : Call.Follows ⟨3, [], 4⟩ strayingCalled _ strayed :=
    Call.Follows.refl.trail 38 (by decide +kernel)
  obtain ⟨x, left, rest, now, stack⟩ : ∃ x left rest, strayed.threads[3]? = some x ∧
      x.frames = [.action ⟨⟨.blob "a", 0⟩, .write, .host, 0⟩ (.access .readWords),
        .log .host "read_f32s"] ++ .callback ⟨⟨.blob "a", 0⟩, .write, .host, 0⟩ left ::
          .phase ⟨straying[0], 0, .inferred⟩ .compute [] :: rest := ⟨_, _, _, rfl, rfl⟩
  have leased := leased_of_follows created earlier run now stack rfl
  exact ⟨_, _, x, left, rest, created, earlier, run, now, stack, by decide +kernel,
    by decide +kernel, by decide +kernel, by decide +kernel, leased⟩

end StreamMachine
