import StreamMachine.Proofs.Stretch
import StreamMachine.Proofs.Locks

/-! What a callback has been lent. From the moment on at which its instruction looks up the binding of
the handle, a callback works on one storage, whatever becomes of the handle meanwhile, and the contents
of that storage are those at the start with the accesses that the callback itself has made. -/
namespace StreamMachine

namespace Frame.Needs

variable {w : World} {frame : Frame} {mode : AccessMode} {id : StorageId}

theorem busy (needs : frame.Needs w mode id) {t : Thread} {outer : List Frame}
    (frames : t.frames = frame :: outer) (ids : List Nat) : ¬ t.WaitsFor ids := by
  rintro ⟨-, rest, joins⟩
  rw [frames] at joins
  cases needs <;> cases joins

theorem not_decides (needs : frame.Needs w mode id) : ¬ frame.Decides := by
  cases needs <;> exact not_false

end Frame.Needs

/-- The innermost callback of a stack is the one that stands on given frames, or one above it. -/
theorem lent?_append {inner base : List Frame} {a b : Accessor} {left : List Action}
    (h : lent? (inner ++ .callback a left :: base) = some b) :
    b = a ∧ under (inner ++ .callback a left :: base) = base ∨
      (∃ later, .callback b later ∈ inner) ∧
        base.length < (under (inner ++ .callback a left :: base)).length := by
  induction inner with
  | nil => exact .inl ⟨(Option.some.inj h).symm, rfl⟩
  | cons f inner ih =>
    cases f with
    | callback c later =>
      obtain rfl : c = b := Option.some.inj h
      refine .inr ⟨⟨later, List.mem_cons_self⟩, ?_⟩
      simp only [List.cons_append, under, List.length_append, List.length_cons]
      omega
    | log | catching =>
      obtain own | ⟨⟨later, mem⟩, above⟩ := ih h
      · exact .inl own
      · exact .inr ⟨⟨later, List.mem_cons_of_mem _ mem⟩, above⟩
    | _ => cases h

theorem callback_mem_of_lent? {frames : List Frame} {a : Accessor} (h : lent? frames = some a) :
    ∃ left, .callback a left ∈ frames := by
  induction frames with
  | nil => cases h
  | cons f frames ih =>
    cases f with
    | callback c left =>
      obtain rfl : c = a := Option.some.inj h
      exact ⟨left, List.mem_cons_self⟩
    | log | catching =>
      obtain ⟨left, mem⟩ := ih h
      exact ⟨left, List.mem_cons_of_mem _ mem⟩
    | _ => cases h

theorem countP_borrows_pos {frames : List Frame} {a : Accessor} {left : List Action}
    (mem : .callback a left ∈ frames) {mode : AccessMode} {id : StorageId} (storage : a.storage = id) :
    (if a.mode = mode then 1 else 0) ≤ frames.countP (Frame.borrows mode id) := by
  split
  next same => exact List.countP_pos_iff.2 ⟨_, mem, by simp [Frame.borrows, same, storage]⟩
  · exact Nat.zero_le _

/-- The access that is made here by the callback on that many frames. -/
def Pace.access? (depth : Nat) (x : Pace) : Option Access :=
  if (under x.thread.frames).length = depth then x.thread.access?.map (·.2) else none

/-- The accesses of the callback on that many frames. -/
def accessesAt (depth : Nat) (own : List Pace) : List Access := own.filterMap (·.access? depth)

/-- The callback that is invoked here, and what it is lent; none if nothing is, or not on that many
frames. -/
def Pace.invoked? (depth : Nat) (x : Pace) : Option (Accessor × List Action) :=
  match x.thread.frames, x.step.thread.frames with
  | .borrow .. :: outer, .callback a actions :: _ =>
    if outer.length = depth then some (a, actions) else none
  | _, _ => none

/-- The callbacks that are invoked on that many frames. -/
def invokedAt (depth : Nat) (own : List Pace) : List (Accessor × List Action) :=
  own.filterMap (·.invoked? depth)

theorem accessesAt_of_none {depth : Nat} {t : Thread} {r : Step} (h : t.access? = none) :
    accessesAt depth [⟨t, r⟩] = [] := by
  simp [accessesAt, Pace.access?, h]

/-- While a callback is on a stack, none is invoked on the frames below it. -/
theorem invokedAt_of_callback {t : Thread} {inner base : List Frame} {a : Accessor}
    {left : List Action} (frames : t.frames = inner ++ .callback a left :: base) (r : Step) :
    invokedAt base.length [⟨t, r⟩] = [] := by
  have above : Pace.invoked? base.length ⟨t, r⟩ = none := by
    cases inner with
    | nil => simp [Pace.invoked?, frames]
    | cons f inner =>
      rw [Pace.invoked?, frames]
      split
      next same _ =>
        cases same
        refine if_neg fun level => ?_
        simp at level
        omega
      · rfl
  simp [invokedAt, above]

theorem accessesAt_append (depth : Nat) (own own' : List Pace) :
    accessesAt depth (own ++ own') = accessesAt depth own ++ accessesAt depth own' :=
  List.filterMap_append

theorem invokedAt_append (depth : Nat) (own own' : List Pace) :
    invokedAt depth (own ++ own') = invokedAt depth own ++ invokedAt depth own' :=
  List.filterMap_append

namespace Machine

variable {m : Machine} {i j : Nat} {t u : Thread} {r : Step} {inner base : List Frame}
  {a b : Accessor} {left later : List Action}

theorem countP_add_le (found : m.threads[i]? = some t) (found' : m.threads[j]? = some u)
    (apart : j ≠ i) (p : Frame → Bool) :
    t.frames.countP p + u.frames.countP p ≤ countFrames p m.threads := by
  have set := countFrames_set found p ⟨[], .run, []⟩
  have there : (m.threads.set i ⟨[], .run, []⟩)[j]? = some u := by
    rw [List.getElem?_set_ne (Ne.symm apart), found']
  have rest := countP_le_countFrames there p
  simp only [List.countP_nil] at set
  omega

/-- Who shares a storage with a callback further down on the stack only reads it. -/
theorem Locked.read_of_inner (h : m.Locked) (found : m.threads[i]? = some t)
    (frames : t.frames = inner ++ .callback a left :: base) (mem : .callback b later ∈ inner)
    (same : b.storage = a.storage) : b.mode = .read := by
  refine (h.reads_of_two (a := a) fun mode => ?_).2
  have upper : (if b.mode = mode then 1 else 0) ≤ inner.countP (Frame.borrows mode a.storage) :=
    countP_borrows_pos mem same
  have lower : (if a.mode = mode then 1 else 0) ≤
      (.callback a left :: base).countP (Frame.borrows mode a.storage) :=
    countP_borrows_pos List.mem_cons_self rfl
  have all := countP_le_countFrames found (Frame.borrows mode a.storage)
  rw [frames, List.countP_append] at all
  exact (Nat.add_comm _ _).trans_le ((Nat.add_le_add upper lower).trans all)

/-- Who shares a storage with a callback on another thread only reads it. -/
theorem Locked.read_of_other (h : m.Locked) (found : m.threads[i]? = some t)
    (mem : .callback a left ∈ t.frames) (found' : m.threads[j]? = some u) (apart : j ≠ i)
    (mem' : .callback b later ∈ u.frames) (same : b.storage = a.storage) : b.mode = .read := by
  refine (h.reads_of_two (a := a) fun mode => ?_).2
  exact (Nat.add_le_add (countP_borrows_pos mem rfl) (countP_borrows_pos mem' same)).trans
    (countP_add_le found found' apart _)

variable {blob : Blob}

/-- A step of the thread of a callback changes what that has been lent by an access of the callback
alone. -/
theorem Locked.blob?_own (h : m.Locked) (found : m.threads[i]? = some t)
    (nested : Nested m.world t.frames) (frames : t.frames = inner ++ .callback a left :: base)
    (hold : Hold m.world t r) (there : m.world.store.blob? a.storage = some blob) :
    (m.world.after r.deed).store.blob? a.storage =
      some (a.mode.result (accessesAt base.length [⟨t, r⟩]) blob) := by
  have held : m.world.store.canAcquire .write a.storage = false :=
    h.canAcquire found (frames ▸ List.mem_append_right inner List.mem_cons_self) (.inr rfl)
  cases access : t.access? with
  | none =>
    rw [hold.blob?_of_other there held (by simp [access])]
    simp [accessesAt_of_none access, AccessMode.result]
  | some taken =>
    obtain ⟨b, x⟩ := taken
    obtain ⟨run, outer, top⟩ := Thread.frames_of_access? access
    obtain ⟨inner, rfl, rest⟩ : ∃ inner', inner = .action b (.access x) :: inner' ∧
        outer = inner' ++ .callback a left :: base := by
      rw [top] at frames
      cases inner with
      | nil => cases frames
      | cons f inner =>
        cases frames
        exact ⟨inner, rfl, rfl⟩
    have lent : lent? outer = some b := by
      rw [top] at nested
      exact nested.1.1
    rw [rest] at lent
    obtain ⟨rfl, base'⟩ | ⟨⟨later, mem⟩, above⟩ := lent?_append lent
    · have pace : Pace.access? base.length ⟨t, r⟩ = some x := by
        simp [Pace.access?, top, rest, under, base', access]
      rw [hold.blob?_of_access there access rfl]
      simp [accessesAt, pace, AccessMode.result]
    · have pace : Pace.access? base.length ⟨t, r⟩ = none := by
        simp [Pace.access?, top, rest, under, above.ne']
      have same : (m.world.after r.deed).store.blob? a.storage = some blob := by
        by_cases storage : b.storage = a.storage
        · rw [hold.blob?_of_access there access storage,
            h.read_of_inner found frames (List.mem_cons_of_mem _ mem) storage, AccessMode.apply_read]
        · refine hold.blob?_of_other there held fun c y access' => ?_
          obtain ⟨rfl, rfl⟩ := Prod.mk.inj (Option.some.inj (access.symm.trans access'))
          exact storage
      simpa [accessesAt, pace, AccessMode.result] using same

/-- Steps of other threads leave what a callback has been lent as it is. -/
theorem Locked.blob?_other (h : m.Locked) (found : m.threads[i]? = some t)
    (mem : .callback a left ∈ t.frames) (found' : m.threads[j]? = some u) (apart : j ≠ i)
    (nested : Nested m.world u.frames) (hold : Hold m.world u r)
    (there : m.world.store.blob? a.storage = some blob) :
    (m.world.after r.deed).store.blob? a.storage = some blob := by
  have held : m.world.store.canAcquire .write a.storage = false :=
    h.canAcquire found mem (.inr rfl)
  by_cases shared : ∃ b x, u.access? = some (b, x) ∧ b.storage = a.storage
  · obtain ⟨b, x, access, storage⟩ := shared
    obtain ⟨run, outer, top⟩ := Thread.frames_of_access? access
    have lent : lent? outer = some b := by
      rw [top] at nested
      exact nested.1.1
    obtain ⟨later, mem'⟩ := callback_mem_of_lent? lent
    have reads := h.read_of_other found mem found' apart
      (by rw [top]; exact List.mem_cons_of_mem _ mem') storage
    rw [hold.blob?_of_access there access storage, reads, AccessMode.apply_read]
  · exact hold.blob?_of_other there held fun b x access storage => shared ⟨b, x, access, storage⟩

end Machine

/-- The frame on top of a stack gives way to others; a callback ends or goes on below them. -/
theorem Hold.stack {w : World} {t : Thread} {r : Step} (h : Hold w t r) :
    (∃ frame outer added, t.frames = frame :: outer ∧ frame.Free ∧
      r.thread.frames = added ++ outer) ∨
    ∃ a old outer, t.frames = .callback a old :: outer ∧ (r.thread.frames = outer ∨
      ∃ added new, r.thread.frames = added ++ .callback a new :: outer) := by
  cases h with
  | aloof frame outer added frames free stack => exact .inl ⟨frame, outer, added, frames, free, stack⟩
  | linger a old new outer added frames stack =>
    exact .inr ⟨a, old, outer, frames, .inr ⟨added, new, stack⟩⟩
  | access _ _ outer _ _ _ frames | refuse _ _ outer _ frames | poke _ outer _ _ _ frames =>
    exact .inl ⟨_, outer, [], frames, trivial, rfl⟩
  | lend a actions outer frames => exact .inl ⟨_, outer, [.callback a actions], frames, trivial, rfl⟩
  | release a actions outer frames stack => exact .inr ⟨a, actions, outer, frames, .inl stack⟩

/-- A callback keeps its place below what comes above it, until it ends. -/
theorem Hold.stays {w : World} {t : Thread} {r : Step} {inner base : List Frame} {a : Accessor}
    {left : List Action} (h : Hold w t r) (frames : t.frames = inner ++ .callback a left :: base) :
    (∃ inner' left', r.thread.frames = inner' ++ .callback a left' :: base) ∨
      inner = [] ∧ r.thread.frames = base := by
  cases inner with
  | nil =>
    obtain ⟨frame, outer, added, top, free, -⟩ | ⟨b, old, outer, top, ended | ⟨added, new, stack⟩⟩ :=
      h.stack
    all_goals
      rw [frames] at top
      cases top
    · exact free.elim
    · exact .inr ⟨rfl, ended⟩
    · exact .inl ⟨added, new, stack⟩
  | cons f inner =>
    obtain ⟨frame, outer, added, top, -, stack⟩ | ⟨b, old, outer, top, ended | ⟨added, new, stack⟩⟩ :=
      h.stack
    all_goals
      rw [frames] at top
      cases top
      left
    · exact ⟨added ++ inner, left, by rw [stack, List.append_assoc]; rfl⟩
    · exact ⟨inner, left, ended⟩
    · exact ⟨added ++ .callback b new :: inner, left, by rw [stack, List.append_assoc]; rfl⟩

/-- The frames that wait while an instruction has lent its blob. -/
def Instruction.lender (i : Instruction) (outer : List Frame) : List Frame :=
  .phase i .compute [] :: .run i [.compute] :: outer

/-- What an instruction lends in a world, and the callback that it lends it to. -/
structure Instruction.Lends (i : Instruction) (w : World) (mode : AccessMode) (a : Accessor)
    (actions : List Action) : Prop where
  ofMode : a.mode = mode
  here : a.LentOn w i
  bound : ∃ handle, i.lends? mode = some (handle, actions) ∧ w.store.binding? handle = some a.storage

/-- The way of an instruction from the start of its compute to the callback. -/
inductive Ahead (w : World) (i : Instruction) (mode : AccessMode) (category : StreamCategory)
    (outer : List Frame) : List Frame → Prop
  | ready : Ahead w i mode category outer (.run i [.compute] :: outer)
  | lending : Ahead w i mode category outer
      (.phase i .compute [.lendBlob mode category] :: .run i [.compute] :: outer)
  | waiting (a : Accessor) (actions : List Action) (lends : i.Lends w mode a actions) :
      Ahead w i mode category outer (.borrow a actions :: i.lender outer)

/-- The way from the end of the callback to the end of the instruction. -/
inductive Thread.Past (i : Instruction) (outer : List Frame) (t : Thread) : Prop
  | phase (frames : t.frames = i.lender outer)
  | run (frames : t.frames = .run i [.compute] :: outer) (control : t.control ≠ .run)
  | done (frames : t.frames = .run (i.advance .compute) [] :: outer)
  | back (frames : t.frames = outer) (control : t.control ≠ .run)

section

variable {w : World} {i : Instruction} {mode : AccessMode} {category : StreamCategory}
  {outer : List Frame} {m : Machine} {t : Thread} {r : Step}

theorem Instruction.lends?_eq_some {handle : Handle} {actions : List Action} :
    i.lends? mode = some (handle, actions) ↔
      i.operand >>= Operand.expectCallback mode i.name = .ok (handle, actions) := by
  rw [lends?]
  cases i.operand >>= Operand.expectCallback mode i.name <;> simp [Except.toOption]

theorem Instruction.Lends.unique {a b : Accessor} {actions others : List Action}
    (h : i.Lends w mode a actions) (h' : i.Lends w mode b others) : b = a ∧ others = actions := by
  obtain ⟨ofMode, ⟨category, device⟩, handle, lent, bound⟩ := h
  obtain ⟨ofMode', ⟨category', device'⟩, handle', lent', bound'⟩ := h'
  obtain ⟨rfl, rfl⟩ := Prod.mk.inj (Option.some.inj (lent.symm.trans lent'))
  have storage := Option.some.inj (bound.symm.trans bound')
  obtain ⟨id, mode', place, number⟩ := a
  obtain ⟨id', mode'', place', number'⟩ := b
  simp_all

theorem Instruction.lends_of_binding {handle : Handle} {actions : List Action} {id : StorageId}
    (lent : i.lends? mode = some (handle, actions)) (bound : w.store.binding? handle = some id) :
    i.Lends w mode ⟨id, mode, w.categoryAt i.stream, w.deviceAt i.stream⟩ actions :=
  ⟨rfl, ⟨rfl, rfl⟩, handle, lent, bound⟩

/-- Frames of instructions of the kinds that are built in. -/
def Frame.BuiltIn : Frame → Prop
  | .run i _ | .phase i _ _ => i.behavior.Works
  | _ => False

/-- What such an instruction does next is up to its own thread. -/
theorem Thread.Forced.of_builtIn {frame : Frame} (frames : t.frames = frame :: outer)
    (builtIn : frame.BuiltIn) (taken : t.step? w 0 (fun _ => none) = some r) : t.Forced w r := by
  refine ⟨fun fresh outcomes => ?_, fun a gate rest waits => ?_, fun ids ⟨_, rest, joins⟩ => ?_, ?_⟩
  · rw [← taken, Thread.step?, Thread.step?, frames]
    cases t.control with
    | run =>
      cases frame with
      | run => rfl
      | phase i p moves => cases moves <;> rfl
      | _ => exact builtIn.elim
    | reply | unwind => rfl
  · rw [frames] at waits
    cases waits
    exact builtIn
  · rw [frames] at joins
    cases joins
    exact builtIn
  · intro f hf
    rw [frames] at hf
    obtain rfl : frame = f := by simpa using hf
    cases frame with
    | phase => exact fun decides => decides builtIn
    | run => exact id
    | _ => exact builtIn.elim

theorem stepMove_lendBlob (w : World) (t : Thread) (i : Instruction) (mode : AccessMode)
    (category : StreamCategory) (inner : List Frame) :
    (∃ panic, t.stepMove w i (.lendBlob mode category) inner = t.raise inner panic ∧
      ∀ a actions, ¬ i.Lends w mode a actions) ∨
    ∃ a actions notice, i.Lends w mode a actions ∧ t.stepMove w i (.lendBlob mode category) inner =
      ⟨.nothing, t.goto (.borrow a actions :: inner), [], [notice]⟩ := by
  rw [Thread.stepMove]
  split
  next violation refused =>
    refine .inl ⟨_, rfl, fun a actions lends => ?_⟩
    obtain ⟨_, _, handle, lent, _⟩ := lends
    rw [Instruction.lends?_eq_some, refused] at lent
    cases lent
  next handle actions found =>
    have lent := Instruction.lends?_eq_some.2 found
    split
    next none =>
      refine .inl ⟨_, rfl, fun a others lends => ?_⟩
      obtain ⟨_, _, handle', lent', bound⟩ := lends
      rw [lent] at lent'
      cases lent'
      rw [none] at bound
      cases bound
    next id bound => exact .inr ⟨_, _, _, Instruction.lends_of_binding lent bound, rfl⟩

/-- The compute of a lending instruction starts. -/
theorem forced_ready (frames : t.frames = .run i [.compute] :: outer) (run : t.control = .run)
    (status : i.status = .inferred) (behavior : i.behavior = .lending mode category) :
    t.Forced w ⟨.nothing, t.goto (.phase i .compute [.lendBlob mode category] ::
      .run i [.compute] :: outer), [], [.began i.stream .compute i.status]⟩ := by
  refine .of_builtIn frames ⟨category, .inl ⟨mode, behavior⟩⟩ ?_
  have ready : i.checkStatus .compute = .ok () := by
    simp [Instruction.checkStatus, status, Phase.before]
  simp only [Thread.step?, frames, run, Thread.stepFrame?, Thread.stepRun, ready, behavior]
  rfl

theorem forced_lending (frames : t.frames = .phase i .compute [.lendBlob mode category] :: outer)
    (run : t.control = .run) (behavior : i.behavior = .lending mode category) :
    t.Forced w (t.stepMove w i (.lendBlob mode category) (.phase i .compute [] :: outer)) := by
  refine .of_builtIn frames ⟨category, .inl ⟨mode, behavior⟩⟩ ?_
  simp only [Thread.step?, frames, run, Thread.stepFrame?]

/-- A thread with an instruction of such a kind on top of its stack. -/
def Thread.BuiltIn (t : Thread) : Prop := ∃ frame rest, t.frames = frame :: rest ∧ frame.BuiltIn

/-- Goes on, gives up, or takes the lock and invokes the callback. -/
theorem Ahead.step (h : Ahead m.world i mode category outer t.frames) (run : t.control = .run)
    (status : i.status = .inferred) (behavior : i.behavior = .lending mode category)
    (goes : t.Goes m r) :
    t.BuiltIn ∧ r.deed = .nothing ∧
      (r.thread.control = .run ∧ Ahead m.world i mode category outer r.thread.frames ∨
        r.thread.Past i outer ∧ ∀ a actions, ¬ i.Lends m.world mode a actions) ∨
    ∃ a actions, i.Lends m.world mode a actions ∧ t.frames = .borrow a actions :: i.lender outer ∧
      m.world.store.canAcquire a.mode a.storage = true ∧
      r = ⟨.acquire a.mode a.storage, t.goto (.callback a actions :: i.lender outer), [], []⟩ := by
  have works : i.behavior.Works := ⟨category, .inl ⟨mode, behavior⟩⟩
  generalize frames : t.frames = stack at h
  cases h with
  | ready =>
    obtain rfl := (forced_ready frames run status behavior).eq_of_goes goes
    exact .inl ⟨⟨_, _, frames, works⟩, rfl, .inl ⟨rfl, .lending⟩⟩
  | lending =>
    obtain rfl := (forced_lending frames run behavior).eq_of_goes goes
    refine .inl ⟨⟨_, _, frames, works⟩, ?_⟩
    obtain ⟨panic, raised, none⟩ | ⟨a, actions, notice, lends, given⟩ :=
      stepMove_lendBlob m.world t i mode category (.phase i .compute [] :: .run i [.compute] :: outer)
    · rw [raised]
      exact ⟨rfl, .inr ⟨.phase rfl, none⟩⟩
    · rw [given]
      exact ⟨rfl, .inl ⟨rfl, .waiting a actions lends⟩⟩
  | waiting a actions lends =>
    have taken := goes.of_frame frames run (by simp)
    simp only [Thread.stepFrame?] at taken
    split at taken <;> cases taken
    next free => exact .inr ⟨a, actions, lends, rfl, free, rfl⟩

theorem Ahead.busy (h : Ahead w i mode category outer t.frames) (ids : List Nat) :
    ¬ t.WaitsFor ids := by
  rintro ⟨-, rest, joins⟩
  rw [joins] at h
  cases h

theorem Thread.Past.busy (h : t.Past i outer) (ids : List Nat) : ¬ t.WaitsFor ids := by
  rintro ⟨run, rest, joins⟩
  cases h with
  | back _ idle => exact idle run
  | phase frames | run frames | done frames =>
    rw [frames] at joins
    cases joins

theorem Thread.Past.builtIn (h : t.Past i outer) (above : outer.length < t.frames.length)
    (works : i.behavior.Works) : t.BuiltIn := by
  cases h with
  | phase frames | run frames | done frames => exact ⟨_, _, frames, works⟩
  | back frames => exact absurd above (by rw [frames]; exact lt_irrefl _)

theorem Thread.BuiltIn.access? (h : t.BuiltIn) : t.access? = none := by
  obtain ⟨frame, rest, frames, builtIn⟩ := h
  cases frame with
  | run | phase => simp [Thread.access?, frames]
  | _ => exact builtIn.elim

theorem Thread.BuiltIn.invoked? (h : t.BuiltIn) (depth : Nat) :
    Pace.invoked? depth ⟨t, r⟩ = none := by
  obtain ⟨frame, rest, frames, builtIn⟩ := h
  cases frame with
  | run | phase => simp [Pace.invoked?, frames]
  | _ => exact builtIn.elim

theorem Thread.Past.step (h : t.Past i outer) (above : outer.length < t.frames.length)
    (goes : t.Goes m r) : r.thread.Past i outer := by
  cases h with
  | phase frames =>
    cases control : t.control with
    | run =>
      cases goes.of_frame frames control (by simp)
      exact .run rfl (by simp [Thread.give])
    | reply reply =>
      rw [goes.of_reply frames control]
      exact .phase rfl
    | unwind panic =>
      rw [goes.of_unwind frames control]
      exact .run rfl (by simp [Thread.stepUnwind, Thread.fail])
  | run frames idle =>
    cases control : t.control with
    | run => exact (idle control).elim
    | reply reply =>
      rw [goes.of_reply frames control]
      exact .done rfl
    | unwind panic =>
      rw [goes.of_unwind frames control]
      exact .back rfl (by simp [Thread.stepUnwind, Thread.fail])
  | done frames =>
    cases control : t.control with
    | run =>
      cases goes.of_frame frames control (by simp)
      exact .back rfl (by simp [Thread.stepRun, Thread.give])
    | reply reply =>
      rw [goes.of_reply frames control]
      exact .back rfl (by simp [Thread.stepReply, Thread.give])
    | unwind panic =>
      rw [goes.of_unwind frames control]
      exact .back rfl (by simp [Thread.stepUnwind, Thread.fail])
  | back frames => exact absurd above (by rw [frames]; exact lt_irrefl _)

/-- Where an instruction stands that lends its blob, since its compute has begun in some world, with
the steps that its thread has taken. -/
inductive Lease (w₀ : World) (i : Instruction) (mode : AccessMode) (category : StreamCategory)
    (outer : List Frame) (own : List Pace) (w : World) (t : Thread) : Prop
  | ahead (stack : Ahead w₀ i mode category outer t.frames) (run : t.control = .run) (same : w = w₀)
      (unread : accessesAt (outer.length + 2) own = [])
      (uncalled : invokedAt (outer.length + 2) own = [])
  | lent (a : Accessor) (actions left : List Action) (inner : List Frame) (blob : Blob)
      (lends : i.Lends w₀ mode a actions)
      (frames : t.frames = inner ++ .callback a left :: i.lender outer)
      (before : w₀.store.blob? a.storage = some blob)
      (now : w.store.blob? a.storage =
        some (mode.result (accessesAt (outer.length + 2) own) blob))
      (called : invokedAt (outer.length + 2) own = [(a, actions)])
  | past (past : t.Past i outer)
      (called : (∃ a actions, i.Lends w₀ mode a actions ∧
          invokedAt (outer.length + 2) own = [(a, actions)]) ∨
        invokedAt (outer.length + 2) own = [] ∧ ∀ a actions, ¬ i.Lends w₀ mode a actions)

namespace Lease

variable {w₀ : World} {own : List Pace} {place : Nat}

/-- One step of the thread itself. -/
theorem step (h : Lease w₀ i mode category outer own m.world t) (status : i.status = .inferred)
    (behavior : i.behavior = .lending mode category) (locked : m.Locked) (orderly : m.Orderly)
    (found : m.threads[place]? = some t) (above : outer.length < t.frames.length)
    (goes : t.Goes m r) :
    Lease w₀ i mode category outer (own ++ [⟨t, r⟩]) (m.world.after r.deed) r.thread := by
  have works : i.behavior.Works := ⟨category, .inl ⟨mode, behavior⟩⟩
  have quiet (top : t.BuiltIn) : invokedAt (outer.length + 2) [⟨t, r⟩] = [] := by
    simp [invokedAt, top.invoked?]
  cases h with
  | ahead stack run same unread uncalled =>
    subst same
    obtain ⟨top, deed, on | past⟩ | ⟨a, actions, lends, frames, free, rfl⟩ :=
      stack.step run status behavior goes
    · refine .ahead on.2 on.1 (by rw [deed]; rfl) ?_ ?_
      · rw [accessesAt_append, unread, accessesAt_of_none top.access?, List.append_nil]
      · rw [invokedAt_append, uncalled, quiet top, List.append_nil]
    · refine .past past.1 (.inr ⟨?_, past.2⟩)
      rw [invokedAt_append, uncalled, quiet top, List.append_nil]
    · obtain ⟨cell, there, -⟩ := World.exists_cell_of_canAcquire free
      have blob : m.world.store.blob? a.storage = some cell.blob := by rw [Store.blob?, there]; rfl
      have kept := World.blob?_updateCell_of_lock m.world a.storage a.storage
        (f := fun cell => { cell with lock := cell.lock.acquire a.mode }) fun _ => rfl
      refine .lent a actions actions [] cell.blob lends rfl blob ?_ ?_
      · have none : t.access? = none := by simp [Thread.access?, frames]
        rw [accessesAt_append, unread, accessesAt_of_none none]
        exact kept.trans blob
      · rw [invokedAt_append, uncalled]
        simp [invokedAt, Pace.invoked?, frames, Thread.goto, Instruction.lender]
  | lent a actions left inner blob lends frames before now called =>
    have hold := goes.hold
    have contents := locked.blob?_own found
      (orderly.nested t (List.mem_of_getElem? found)) frames hold now
    have uncalled : invokedAt (outer.length + 2) [⟨t, r⟩] = [] := invokedAt_of_callback frames r
    have called' : invokedAt (outer.length + 2) (own ++ [⟨t, r⟩]) = [(a, actions)] := by
      rw [invokedAt_append, called, uncalled, List.append_nil]
    obtain ⟨inner', left', stack⟩ | ⟨-, ended⟩ := hold.stays frames
    · refine .lent a actions left' inner' blob lends stack before ?_ called'
      rw [contents, lends.ofMode, accessesAt_append, AccessMode.result, AccessMode.result,
        AccessMode.result, List.foldl_append]
      rfl
    · exact .past (.phase ended) (.inl ⟨a, actions, lends, called'⟩)
  | past past called =>
    refine .past (past.step above goes) ?_
    rw [invokedAt_append, quiet (past.builtIn above works), List.append_nil]
    exact called

/-- Steps of threads that the instruction has started, which wait for the callback. -/
theorem beside {place floor j : Nat} (h : Lease w₀ i mode category outer own m.world t)
    (awaited : Call.Awaited ⟨place, outer, floor⟩ m) (locked : m.Locked) (orderly : m.Orderly)
    (found : m.threads[place]? = some t) {u : Thread} (started : floor ≤ j)
    (found' : m.threads[j]? = some u) (goes : u.Goes m r) :
    Lease w₀ i mode category outer own (m.world.after r.deed) t := by
  have stands (busy : ∀ ids, ¬ t.WaitsFor ids) : False :=
    goes.frames_ne_nil (awaited.ended found busy started found')
  cases h with
  | ahead stack => exact (stands stack.busy).elim
  | past past => exact (stands past.busy).elim
  | lent a actions left inner blob lends frames before now called =>
    have apart : j ≠ place := by
      have : place < floor := awaited.early
      omega
    have mem : .callback a left ∈ t.frames :=
      frames ▸ List.mem_append_right inner List.mem_cons_self
    exact .lent a actions left inner blob lends frames before (locked.blob?_other found mem found'
      apart (orderly.nested u (List.mem_of_getElem? found')) goes.hold now) called

/-- The callback, or host code above it, may change its mind. -/
theorem decide {t' : Thread} {w : World} (h : Lease w₀ i mode category outer own w t)
    (works : i.behavior.Works) (above : outer.length < t.frames.length)
    (host : ∀ f ∈ t.frames.head?, f.Decides) (revised : t.Revised t') :
    Lease w₀ i mode category outer own w t' := by
  have settled (builtIn : t.BuiltIn) : False := by
    obtain ⟨frame, rest, frames, builtIn⟩ := builtIn
    have decides := host frame (by simp [frames])
    cases frame with
    | phase => exact decides builtIn
    | run => exact decides
    | _ => exact builtIn
  cases h with
  | ahead stack =>
    refine (?_ : False).elim
    generalize frames : t.frames = given at stack
    cases stack with
    | ready | lending => exact settled ⟨_, _, frames, works⟩
    | waiting a actions => exact host (.borrow a actions) (by simp [frames])
  | past past => exact (settled (past.builtIn above works)).elim
  | lent a actions left inner blob lends frames before now called =>
    obtain ⟨inner', left', stack⟩ : ∃ inner' left',
        t'.frames = inner' ++ .callback a left' :: i.lender outer := by
      cases revised with
      | moves k p old new rest top =>
        rw [top] at frames
        cases inner with
        | nil => cases frames
        | cons f inner =>
          cases frames
          exact ⟨.phase k p new :: inner, left, rfl⟩
      | actions b old new rest top =>
        rw [top] at frames
        cases inner with
        | nil =>
          cases frames
          exact ⟨[], new, rfl⟩
        | cons f inner =>
          cases frames
          exact ⟨.callback b new :: inner, left, rfl⟩
    exact .lent a actions left' inner' blob lends stack before now called

/-- Whoever finds a callback where the instruction has its own. -/
theorem of_callback {w : World} {inner base : List Frame} {a : Accessor} {left : List Action}
    (h : Lease w₀ i mode category outer own w t) (stack : t.frames = inner ++ .callback a left :: base)
    (depth : base.length = outer.length + 2) : ∃ actions blob, i.Lends w₀ mode a actions ∧
      w₀.store.blob? a.storage = some blob ∧ w.store.blob? a.storage =
        some (mode.result (accessesAt (outer.length + 2) own) blob) ∧
      invokedAt (outer.length + 2) own = [(a, actions)] := by
  have length := congrArg List.length stack
  simp only [List.length_append, List.length_cons, depth] at length
  cases h with
  | lent b actions others upper blob lends frames before now called =>
    have tails := (List.append_inj' (frames.symm.trans stack) (by simp [depth, Instruction.lender])).2
    cases tails
    exact ⟨actions, blob, lends, before, now, called⟩
  | ahead ahead =>
    generalize given : t.frames = frames at ahead
    cases ahead with
    | ready | lending =>
      simp [given] at length
      omega
    | waiting b actions =>
      rw [given] at stack
      cases inner with
      | nil => cases stack
      | cons f inner => simp [given, Instruction.lender] at length
  | past past =>
    cases past with
    | phase frames | run frames | done frames | back frames =>
      simp only [frames, Instruction.lender, List.length_cons] at length
      omega

/-- The callback is invoked once at most. -/
theorem invokedAt_prefix {w : World} {a : Accessor} {actions : List Action}
    (h : Lease w₀ i mode category outer own w t) (lends : i.Lends w₀ mode a actions) :
    invokedAt (outer.length + 2) own <+: [(a, actions)] := by
  cases h with
  | ahead _ _ _ _ uncalled => exact uncalled ▸ List.nil_prefix
  | lent b others _ _ _ lends' _ _ _ called =>
    obtain ⟨rfl, rfl⟩ := lends.unique lends'
    exact called ▸ List.prefix_rfl
  | past _ called =>
    obtain ⟨b, others, lends', called⟩ | ⟨-, none⟩ := called
    · obtain ⟨rfl, rfl⟩ := lends.unique lends'
      exact called ▸ List.prefix_rfl
    · exact (none a actions lends).elim

/-- It has been invoked when the instruction is over. -/
theorem invokedAt_of_back {w : World} {a : Accessor} {actions : List Action}
    (h : Lease w₀ i mode category outer own w t) (lends : i.Lends w₀ mode a actions)
    (back : t.frames = outer) : invokedAt (outer.length + 2) own = [(a, actions)] := by
  have length := congrArg List.length back
  cases h with
  | ahead ahead =>
    generalize given : t.frames = frames at ahead
    cases ahead <;> simp only [given, Instruction.lender, List.length_cons] at length <;> omega
  | lent _ _ _ _ _ _ frames =>
    simp [frames, Instruction.lender] at length
    omega
  | past _ called =>
    obtain ⟨b, others, lends', called⟩ | ⟨-, none⟩ := called
    · obtain ⟨rfl, rfl⟩ := lends.unique lends'
      exact called
    · exact (none a actions lends).elim

end Lease

theorem Machine.Orderly.inferred (h : m.Orderly) {j : Nat} (found : m.threads[j]? = some t)
    (frames : t.frames = .run i [.compute] :: outer) : i.status = .inferred := by
  have nested := h.nested t (List.mem_of_getElem? found)
  rw [frames] at nested
  have due := nested.1.1
  cases status : i.status <;> rw [status] at due <;> first | rfl | cases due

/-- All runs of the call that an instruction is from the start of its compute. -/
theorem Call.Follows.lease {c : Call} {m₀ : Machine} {own : List Pace} {start : Thread}
    (run : c.Follows m₀ own m) (awaited : c.Awaited m₀) (locked : m₀.Locked)
    (orderly : m₀.Orderly) (found : m₀.threads[c.place]? = some start)
    (frames : start.frames = .run i [.compute] :: c.outer) (control : start.control = .run)
    (behavior : i.behavior = .lending mode category) : ∃ x, m.threads[c.place]? = some x ∧
      Lease m₀.world i mode category c.outer own m.world x := by
  have works : i.behavior.Works := ⟨category, .inl ⟨mode, behavior⟩⟩
  have status := orderly.inferred found frames
  induction run with
  | refl => exact ⟨start, found, .ahead (frames ▸ .ready) control rfl rfl rfl⟩
  | own run t r found' above goes ih =>
    obtain ⟨x, foundx, lease⟩ := ih
    obtain rfl := Option.some.inj (found'.symm.trans foundx)
    obtain ⟨seen, reaches⟩ := run.reaches
    exact ⟨_, Machine.getElem?_stepped found' r, lease.step status behavior (reaches.locked locked)
      (reaches.orderly orderly) found' above goes⟩
  | other run j u r started found' goes ih =>
    obtain ⟨x, foundx, lease⟩ := ih
    obtain ⟨seen, reaches⟩ := run.reaches
    have later := run.awaited awaited
    have apart : c.place ≠ j := by
      have := later.early
      omega
    refine ⟨x, ?_, lease.beside later (reaches.locked locked) (reaches.orderly orderly) foundx started
      found' goes⟩
    rw [Machine.getElem?_stepped_of_ne (later.early.trans_le later.inside) apart, foundx]
  | decide run j u u' found' covered host revised ih =>
    obtain ⟨x, foundx, lease⟩ := ih
    by_cases own : j = c.place
    · subst own
      obtain rfl := Option.some.inj (found'.symm.trans foundx)
      obtain ⟨-, above⟩ | started := covered
      · refine ⟨u', ?_, lease.decide works above host revised⟩
        exact List.getElem?_set_self (List.getElem?_eq_some_iff.1 found').1
      · have := (run.awaited awaited).early
        omega
    · exact ⟨x, by rw [List.getElem?_set_ne own, foundx], lease⟩

/-- An instruction that begins its compute comes to wait for the storage that its handle is bound to. -/
theorem stretch_to_waiting {c : Call} {handle : Handle} {actions : List Action} {id : StorageId}
    (found : m.threads[c.place]? = some t) (frames : t.frames = .run i [.compute] :: c.outer)
    (run : t.control = .run) (status : i.status = .inferred)
    (behavior : i.behavior = .lending mode category) (lent : i.lends? mode = some (handle, actions))
    (bound : m.world.store.binding? handle = some id) : ∃ trace m' x, c.Stretch m trace m' ∧
      m'.world = m.world ∧ m'.threads[c.place]? = some x ∧ x.control = .run ∧
      x.frames = .borrow ⟨id, mode, m.world.categoryAt i.stream, m.world.deviceAt i.stream⟩ actions ::
        i.lender c.outer := by
  have first := forced_ready (w := m.world) frames run status behavior
  have begun := Machine.getElem?_stepped found ⟨.nothing, t.goto (.phase i .compute
    [.lendBlob mode category] :: .run i [.compute] :: c.outer), [], [.began i.stream .compute i.status]⟩
  have second := forced_lending (w := m.world) (t := t.goto (.phase i .compute
    [.lendBlob mode category] :: .run i [.compute] :: c.outer)) rfl rfl behavior
  have lends := Instruction.lends_of_binding lent bound
  obtain ⟨panic, -, none⟩ | ⟨a, others, notice, lends', given⟩ := stepMove_lendBlob m.world (t.goto
    (.phase i .compute [.lendBlob mode category] :: .run i [.compute] :: c.outer)) i mode category
    (.phase i .compute [] :: .run i [.compute] :: c.outer)
  · exact (none _ _ lends).elim
  obtain ⟨rfl, rfl⟩ := lends.unique lends'
  rw [given] at second
  exact ⟨_, _, _, .step found (by simp [frames]) first
    (.step begun (by simp only [Thread.goto, List.length_cons]; omega) second (.refl _)), rfl,
    Machine.getElem?_stepped begun _, rfl, rfl⟩

end

end StreamMachine
