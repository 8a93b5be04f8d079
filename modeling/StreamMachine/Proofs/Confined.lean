import StreamMachine.Proofs.Reference
import StreamMachine.Proofs.Share

/-! Threads that work on the store in the plain way: by commands outside callbacks, by instructions that
lend a blob or link a handle, and by callbacks that keep to what they are lent. Every step of such a
thread comes to acts on the reference. -/
namespace StreamMachine

/-- Actions on the blob that is lent, and on nothing else. -/
def Action.Confined : Action → Prop
  | .access _ | .panic _ => True
  | .attempt action => action.Confined
  | _ => False

def OperandSpec.Confined : OperandSpec → Prop
  | .write _ callback | .read _ callback => ∀ x ∈ callback, x.Confined
  | _ => True

def Operand.Confined : Operand → Prop
  | .write _ callback | .read _ callback => ∀ x ∈ callback, x.Confined
  | _ => True

/-- The moves by which instructions get at the store. -/
def Move.Works : Move → Prop
  | .lendBlob .. | .bindPublished _ => True
  | _ => False

/-- Behaviors that lend a blob to a callback, or link a handle. -/
def Behavior.Works (b : Behavior) : Prop :=
  ∃ category, (∃ mode, b = .lending mode category) ∨ b = .lazyReference category

structure Message.Confined (m : Message) : Prop where
  behavior : m.descriptor.behavior.Works
  operand : ∀ operand, m.operand = some operand → operand.Confined

/-- A name that stands for such a behavior, if for any. -/
def Registry.Works (registry : Registry) (name : String) : Prop :=
  ∀ d, registry.lookup name = .ok d → d.behavior.Works

/-- Commands that leave contents of storages to callbacks. -/
def StoreCommand.Confined : StoreCommand → Prop
  | .poke .. | .pokeStorage .. => False
  | _ => True

def Command.Confined (registry : Registry) : Command → Prop
  | .store command => command.Confined
  | .query _ | .schedule | .runPending _ => True
  | .receive name operand => registry.Works name ∧ operand.Confined
  | .receiveMessage name operand | .enqueue _ name operand =>
    registry.Works name ∧ ∀ spec, operand = some spec → spec.Confined
  | .scheduleConcurrently => False

/-- Frames outside callbacks. -/
def Frame.Outside (registry : Registry) : Frame → Prop
  | .command c => c.Confined registry
  | .schedule .. | .drain .. => True
  | .run i _ => i.message.Confined
  | .phase i _ moves => i.message.Confined ∧ ∀ move ∈ moves, move.Works
  | _ => False

/-- Frames that wait in a callback for what an action comes to. -/
def Frame.Waits : Frame → Prop
  | .log .. | .catching => True
  | _ => False

/-- The handle through which an instruction lends its blob, and the callback that it lends it to. -/
def Instruction.lends? (i : Instruction) (mode : AccessMode) : Option (Handle × List Action) :=
  (i.operand >>= Operand.expectCallback mode i.name).toOption

/-- The handle that an instruction links, and the name that it looks up. -/
def Instruction.links (i : Instruction) : List Act :=
  match i.operand >>= Operand.expectLazyReference i.name with
  | .ok (handle, name) => [.link handle name]
  | .error _ => []

/-- The acts that a step comes to, and the callback that is under way after it. A callback is under way
from when it is lent its blob, and comes to an act when it ends; an instruction links when it runs. -/
def Thread.effect (t : Thread) (w : World) (d : Deed) (loan : Option Loan) :
    List Act × Option Loan :=
  match t.frames, t.control with
  | .command (.store _) :: _, .run => (d.acts w, loan)
  | .phase i _ (.bindPublished _ :: _) :: _, .run => (i.links, loan)
  | .borrow a _ :: .phase i _ _ :: _, .run =>
    ([], (i.lends? a.mode).map fun lent => ⟨lent.1, a.mode, lent.2, []⟩)
  | .action _ (.access x) :: _, .run => ([], loan.map (·.access x))
  | .callback _ [] :: _, .run | .callback .. :: _, .unwind _ => (loan.toList.map Loan.act, none)
  | _, _ => ([], loan)

def Control.unwinds : Control → Bool
  | .unwind _ => true
  | _ => false

/-- What becomes of a blob when the actions come to their end that are left of a callback: below frames
that wait, and unless a panic unwinds past all of these. -/
def AccessMode.resume (mode : AccessMode) (left : List Action) : List Frame → Bool → Blob → Blob
  | [], unwinds, blob => if unwinds then blob else mode.callback left blob
  | .catching :: inner, _, blob => mode.resume left inner false blob
  | _ :: inner, unwinds, blob => mode.resume left inner unwinds blob

/-- A callback under way on a stack, with the actions that it has taken up and those it has left. -/
structure Loan.Open (registry : Registry) (r : Reference) (l : Loan) (a : Accessor)
    (taken left : List Action) (inner below : List Frame) : Prop where
  bound : r.env l.handle = some a.storage
  mode : l.mode = a.mode
  plan : l.callback = taken ++ left
  waits : ∀ f ∈ inner, f.Waits
  confined : ∀ x ∈ left, x.Confined
  outside : ∀ f ∈ below, f.Outside registry

/-- The stack of a confined thread: outside callbacks, about to lend a blob, in a callback between its
actions, or in one of them. What a callback has done so far and what it has left to do come to what it
was to do from the start, whatever else were left. -/
inductive Stands (registry : Registry) (r : Reference) : Option Loan → Control → List Frame → Prop
  | outside {control : Control} {frames : List Frame} (outside : ∀ f ∈ frames, f.Outside registry) :
      Stands registry r none control frames
  | lending {control : Control} {a : Accessor} {actions : List Action} {i : Instruction} {p : Phase}
      {moves : List Move} {below : List Frame} {handle : Handle}
      (lent : i.lends? a.mode = some (handle, actions)) (bound : r.env handle = some a.storage)
      (confined : ∀ x ∈ actions, x.Confined)
      (outside : ∀ f ∈ Frame.phase i p moves :: below, f.Outside registry) :
      Stands registry r none control (.borrow a actions :: .phase i p moves :: below)
  | within {control : Control} {l : Loan} {a : Accessor} {taken left : List Action}
      {inner below : List Frame} (opened : l.Open registry r a taken left inner below)
      (resumes : ∀ blob, r.heap a.storage = some blob → ∀ rest,
        l.mode.resume rest inner control.unwinds (l.result blob) =
          l.mode.callback (taken ++ rest) blob) :
      Stands registry r (some l) control (inner ++ .callback a left :: below)
  | acting {l : Loan} {a : Accessor} {x : Action} {taken left : List Action}
      {inner below : List Frame} (opened : l.Open registry r a taken left inner below)
      (act : x.Confined) (resumes : ∀ blob, r.heap a.storage = some blob → ∀ rest,
        l.mode.resume rest inner (!(x.result l.mode (l.result blob)).2)
            (x.result l.mode (l.result blob)).1 =
          l.mode.callback (taken ++ rest) blob) :
      Stands registry r (some l) .run (.action a x :: (inner ++ .callback a left :: below))

/-- A step that the reference follows by the acts that it comes to. -/
structure Step.Followed (r : Reference) (w : World) (t : Thread) (loan : Option Loan) (s : Step) :
    Prop where
  alone : s.spawned = []
  followed : ∃ r', r.run (t.effect w s.deed loan).1 = some r' ∧
    r'.Holds (t.effect w s.deed loan).2 (w.after s.deed) ∧
    Stands w.registry r' (t.effect w s.deed loan).2 s.thread.control s.thread.frames
  confined : ∀ i m, s.deed = .push i m → m.Confined

variable {r : Reference} {w : World} {t : Thread} {loan : Option Loan} {s : Step}
  {outer : List Frame}

theorem Behavior.Works.moves {b : Behavior} (works : b.Works) (p : Phase) :
    ∀ move ∈ b.moves p, move.Works := by
  obtain ⟨category, ⟨mode, rfl⟩ | rfl⟩ := works <;> cases p <;>
    simp [Behavior.moves, Behavior.lending, Behavior.lazyReference, Behavior.fixed, Move.Works]

/-- Outside callbacks no lock is held. -/
theorem Reference.Holds.canAcquire (holds : r.Holds none w) {id : StorageId}
    (there : (r.heap id).isSome) (mode : AccessMode) : w.store.canAcquire mode id = true := by
  obtain ⟨blob, found⟩ := Option.isSome_iff_exists.1 there
  rw [Store.canAcquire, holds.cells, found]
  cases mode <;> rfl

theorem Reference.Holds.readable? (holds : r.Holds none w) {id : StorageId}
    (there : (r.heap id).isSome) : w.readable? id = r.heap id := by
  rw [World.readable?, holds.canAcquire there, if_pos rfl, holds.blob?]

namespace World

theorem named_ok {α : Type} {what name : String} {found : Option α} {a : α}
    (h : named what name found = .ok a) : found = some a := by
  cases found <;> cases h
  rfl

theorem confined_operand {spec : OperandSpec} (confined : spec.Confined) {operand : Operand}
    (h : w.operand spec = .ok operand) : operand.Confined := by
  cases spec with
  | write blob callback | read blob callback =>
    simp only [World.operand, bind_ok] at h
    obtain ⟨handle, -, h⟩ := h
    cases h
    exact confined
  | lazyReference blob lazyName =>
    simp only [World.operand, bind_ok] at h
    obtain ⟨handle, -, h⟩ := h
    cases h
    trivial
  | word | string => cases h; trivial

theorem confined_message {name : String} {spec : Option OperandSpec} {m : Message}
    (works : w.registry.Works name) (confined : ∀ spec', spec = some spec' → spec'.Confined)
    (h : w.message name spec = .ok m) : m.Confined := by
  simp only [World.message, bind_ok] at h
  obtain ⟨operand, made, descriptor, found, h⟩ := h
  cases h
  refine ⟨works descriptor ?_, fun o same => ?_⟩
  · cases registered : w.registry.lookup name <;> rw [registered] at found <;> cases found
    rfl
  · cases spec with
    | none =>
      cases made
      cases same
    | some spec =>
      simp only [World.operand?, bind_ok] at made
      obtain ⟨o', made, h⟩ := made
      cases h
      cases same
      exact confined_operand (confined spec rfl) made

theorem eq_of_enqueue {i j : Nat} {m other : Message} (h : w.enqueue i m = .accepted j other) :
    other = m := by
  rw [World.enqueue] at h
  split at h <;> cases h
  rfl

theorem eq_of_receiveMessage {i : Nat} {m other : Message}
    (h : w.receiveMessage m = .accepted i other) : other = m := by
  rw [World.receiveMessage] at h
  split at h
  · exact eq_of_enqueue h
  · cases h

theorem acts_of_poke? {id : StorageId} {words : List UInt32} {reply : Reply} {d : Deed}
    (h : w.poke? id words = some (reply, d)) : d.acts w = [] := by
  simp only [poke?] at h
  split at h
  · obtain ⟨blob, -, h⟩ := Option.map_eq_some_iff.1 h
    split at h <;> cases h <;> rfl
  · cases h

/-- What a command does to the store is told by its names. -/
theorem acts_of_storeCommand? {c : StoreCommand} {reply : Reply} {d : Deed}
    (h : w.storeCommand? c = .ok (some (reply, d))) : d.acts w = c.acts w := by
  cases c with
  | newBlob name source | newStorage name source =>
    simp only [storeCommand?, bind_ok] at h
    obtain ⟨made, found, h⟩ := h
    cases made <;> cases h <;> simp [StoreCommand.acts, Deed.acts, found]
  | newHandle name s | publish name s =>
    simp only [storeCommand?, bind_ok] at h
    obtain ⟨id, found, h⟩ := h
    cases h
    simp [StoreCommand.acts, Deed.acts, named_ok found]
  | rebind blob s =>
    simp only [storeCommand?, bind_ok] at h
    obtain ⟨k, known, id, found, h⟩ := h
    cases h
    simp [StoreCommand.acts, Deed.acts, named_ok known, named_ok found]
  | withdraw | published | isPublished | publishedCount =>
    cases h
    rfl
  | grab =>
    simp only [storeCommand?, bind_ok] at h
    obtain ⟨_, -, h⟩ := h
    cases h
    rfl
  | shares | sharesBlob =>
    simp only [storeCommand?, bind_ok] at h
    obtain ⟨_, -, _, -, h⟩ := h
    cases h
    rfl
  | poke blob words | pokeStorage blob words =>
    simp only [storeCommand?, bind_ok] at h
    obtain ⟨id, -, h⟩ := h
    exact acts_of_poke? (Except.ok.inj h)
  | snapshot | peek =>
    simp only [storeCommand?, bind_ok] at h
    obtain ⟨_, -, h⟩ := h
    obtain ⟨_, -, h⟩ := Option.map_eq_some_iff.1 (Except.ok.inj h)
    cases h
    rfl
  | sameContents =>
    simp only [storeCommand?, bind_ok] at h
    obtain ⟨_, -, _, -, h⟩ := h
    obtain ⟨_, -, h⟩ := Option.bind_eq_some_iff.1 (Except.ok.inj h)
    obtain ⟨_, -, h⟩ := Option.map_eq_some_iff.1 h
    cases h
    rfl

theorem acts_of_storeCommand?_error {c : StoreCommand} {panic : Panic}
    (h : w.storeCommand? c = .error panic) : c.acts w = [] := by
  cases c with
  | newBlob name source | newStorage name source =>
    cases found : World.made source with
    | error panic => simp [StoreCommand.acts, found]
    | ok made =>
      simp only [storeCommand?, found] at h
      cases made <;> cases h
  | newHandle name s | publish name s =>
    cases found : w.directory.storages.lookup s with
    | none => simp [StoreCommand.acts, found]
    | some id =>
      simp only [storeCommand?, storage, found] at h
      cases h
  | rebind blob s =>
    cases known : w.directory.handles.lookup blob with
    | none => simp [StoreCommand.acts, known]
    | some k =>
      cases found : w.directory.storages.lookup s with
      | none => simp [StoreCommand.acts, known, found]
      | some id =>
        simp only [storeCommand?, handle, storage, known, found] at h
        cases h
  | withdraw => cases h
  | _ => rfl

/-- Confined commands are answered at once, and what they do to the store they do to what there is. -/
theorem answer_of_storeCommand? (holds : r.Holds none w) {c : StoreCommand} (confined : c.Confined)
    {answer : Option (Reply × Deed)} (h : w.storeCommand? c = .ok answer) :
    ∃ reply d, answer = some (reply, d) ∧ d.Arranges r := by
  have storage {name : String} {id : StorageId} (h : w.storage name = .ok id) :
      (r.heap id).isSome := holds.storages name id (named_ok h)
  have handle {name : String} {handle : Handle} (h : w.handle name = .ok handle) :
      (r.env handle).isSome := holds.handles name handle (named_ok h)
  have bound {name : String} {id : StorageId} (h : w.bound name = .ok id) : (r.heap id).isSome := by
    simp only [World.bound, bind_ok] at h
    obtain ⟨handle, -, h⟩ := h
    exact holds.sound.bound handle id (by rw [← holds.env]; exact named_ok h)
  have readable {id : StorageId} (there : (r.heap id).isSome) :
      ∃ blob, w.readable? id = some blob := by
    rw [holds.readable? there]
    exact Option.isSome_iff_exists.1 there
  cases c with
  | newBlob name source | newStorage name source =>
    simp only [storeCommand?, bind_ok] at h
    obtain ⟨made, -, h⟩ := h
    cases made <;> cases h <;> exact ⟨_, _, rfl, trivial⟩
  | poke | pokeStorage => exact confined.elim
  | newHandle name s | publish name s =>
    simp only [storeCommand?, bind_ok] at h
    obtain ⟨id, found, h⟩ := h
    cases h
    exact ⟨_, _, rfl, storage found⟩
  | grab blob s =>
    simp only [storeCommand?, bind_ok] at h
    obtain ⟨id, found, h⟩ := h
    cases h
    exact ⟨_, _, rfl, bound found⟩
  | rebind blob s =>
    simp only [storeCommand?, bind_ok] at h
    obtain ⟨k, known, id, found, h⟩ := h
    cases h
    exact ⟨_, _, rfl, handle known, storage found⟩
  | shares | sharesBlob =>
    simp only [storeCommand?, bind_ok] at h
    obtain ⟨_, -, _, -, h⟩ := h
    cases h
    exact ⟨_, _, rfl, trivial⟩
  | published | withdraw | isPublished | publishedCount =>
    cases h
    exact ⟨_, _, rfl, trivial⟩
  | snapshot blob =>
    simp only [storeCommand?, bind_ok] at h
    obtain ⟨id, found, h⟩ := h
    obtain ⟨contents, there⟩ := readable (bound found)
    rw [there] at h
    cases h
    exact ⟨_, _, rfl, trivial⟩
  | peek s =>
    simp only [storeCommand?, bind_ok] at h
    obtain ⟨id, found, h⟩ := h
    obtain ⟨contents, there⟩ := readable (storage found)
    rw [there] at h
    cases h
    exact ⟨_, _, rfl, trivial⟩
  | sameContents a b =>
    simp only [storeCommand?, bind_ok] at h
    obtain ⟨id, first, id', second, h⟩ := h
    obtain ⟨x, hx⟩ := readable (bound first)
    obtain ⟨y, hy⟩ := readable (bound second)
    rw [hx, hy] at h
    cases h
    exact ⟨_, _, rfl, trivial⟩

end World

theorem Thread.effect_of_store {c : StoreCommand} (frames : t.frames = .command (.store c) :: outer)
    (control : t.control = .run) {fresh : Nat} {outcomes : Nat → Option (Except Panic Reply)}
    (step : t.step? w fresh outcomes = some s) : t.effect w s.deed loan = (c.acts w, loan) := by
  simp only [effect, frames, control, Prod.mk.injEq, and_true]
  simp only [step?, frames, control, stepFrame?, stepCommand?] at step
  split at step
  next panic failed =>
    cases step
    exact (World.acts_of_storeCommand?_error failed).symm
  · cases step
  next reply d answered =>
    cases step
    exact World.acts_of_storeCommand? answered

namespace Step.Followed

theorem of_effect {r' : Reference} (acts : List Act) {loan' : Option Loan} {d : Deed} {x : Thread}
    {seen : List Occurrence} (effect : t.effect w d loan = (acts, loan'))
    (run : r.run acts = some r') (holds : r'.Holds loan' (w.after d))
    (stands : Stands w.registry r' loan' x.control x.frames) (quiet : ∀ i m, d ≠ .push i m) :
    Followed r w t loan ⟨d, x, [], seen⟩ := by
  refine ⟨rfl, ⟨r', ?_, ?_, ?_⟩, fun i m push => (quiet i m push).elim⟩ <;> rw [effect]
  · exact run
  · exact holds
  · exact stands

/-- A step that comes to nothing. -/
theorem of_still (holds : r.Holds loan w) (effect : t.effect w s.deed loan = ([], loan))
    (apart : s.deed.Apart) (stands : Stands w.registry r loan s.thread.control s.thread.frames)
    (alone : s.spawned = []) (confined : ∀ i m, s.deed = .push i m → m.Confined) :
    s.Followed r w t loan := by
  refine ⟨alone, ?_, confined⟩
  rw [effect]
  exact ⟨r, rfl, holds.apart apart, stands⟩

/-- A step outside callbacks that leaves the store and the queues alone. -/
theorem of_outside {d : Deed} {x : Thread} {seen : List Occurrence} (holds : r.Holds none w)
    (effect : t.effect w d none = ([], none)) (apart : d.Apart) (quiet : ∀ i m, d ≠ .push i m)
    (outside : ∀ f ∈ x.frames, f.Outside w.registry) : Followed r w t none ⟨d, x, [], seen⟩ :=
  of_still holds effect apart (.outside outside) rfl fun i m push => (quiet i m push).elim

theorem of_raise {panic : Panic} (holds : r.Holds none w)
    (effect : t.effect w .nothing none = ([], none))
    (outside : ∀ f ∈ outer, f.Outside w.registry) : (t.raise outer panic).Followed r w t none :=
  of_outside holds effect trivial (by simp) outside

theorem of_submit {m : Message} (holds : r.Holds none w)
    (effect : ∀ d, t.effect w d none = ([], none))
    (confined : m.Confined) (rest : ∀ f ∈ outer, f.Outside w.registry) {outcome : World.Submission}
    (mine : ∀ i other, outcome = .accepted i other → other = m) :
    (t.submit w outer outcome).Followed r w t none := by
  cases outcome with
  | rejected error => exact of_outside holds (effect _) trivial (by simp [World.Submission.deed]) rest
  | accepted i other =>
    obtain rfl := mine i other rfl
    refine of_still holds (effect _) trivial (.outside rest) rfl fun j m push => ?_
    cases push
    exact confined

theorem of_receive {name : String} {operand : Option OperandSpec} (holds : r.Holds none w)
    (effect : ∀ d, t.effect w d none = ([], none)) (works : w.registry.Works name)
    (confined : ∀ spec, operand = some spec → spec.Confined)
    (rest : ∀ f ∈ outer, f.Outside w.registry) (step : (match w.message name operand with
      | .error panic => t.raise outer panic
      | .ok m => t.submit w outer (w.receiveMessage m)) = s) : s.Followed r w t none := by
  subst step
  split
  · exact of_raise holds (effect _) rest
  next m made =>
    exact of_submit holds effect (World.confined_message works confined made) rest
      fun i other => World.eq_of_receiveMessage

theorem of_command {c : Command} {fresh : Nat} (holds : r.Holds none w)
    (frames : t.frames = .command c :: outer) (run : t.control = .run)
    (confined : c.Confined w.registry) (rest : ∀ f ∈ outer, f.Outside w.registry)
    (step : t.stepCommand? w fresh c outer = some s) : s.Followed r w t none := by
  cases c with
  | store command =>
    have effect (d : Deed) : t.effect w d none = (d.acts w, none) := by
      simp [Thread.effect, frames, run]
    simp only [Thread.stepCommand?] at step
    split at step
    · cases step
      exact of_raise holds (effect _) rest
    · cases step
    next reply d found =>
      cases step
      obtain ⟨_, _, same, arranges⟩ := World.answer_of_storeCommand? holds confined found
      cases same
      obtain ⟨r', acts, holds⟩ := holds.arrange arranges
      refine of_effect _ (effect d) acts holds (.outside rest) ?_
      rintro i m rfl
      exact (World.storeCommand?_calm found).elim
  | query command =>
    have effect (d : Deed) : t.effect w d none = ([], none) := by
      simp [Thread.effect, frames, run]
    simp only [Thread.stepCommand?, Option.some.injEq] at step
    subst step
    split
    · exact of_raise holds (effect _) rest
    · exact of_outside holds (effect _) trivial (by simp) rest
  | receive name operand =>
    refine of_receive holds (by simp [Thread.effect, frames, run]) confined.1 ?_ rest
      (Option.some.inj step)
    rintro spec same
    cases same
    exact confined.2
  | receiveMessage name operand =>
    exact of_receive holds (by simp [Thread.effect, frames, run]) confined.1 confined.2 rest
      (Option.some.inj step)
  | enqueue category name operand =>
    have effect (d : Deed) : t.effect w d none = ([], none) := by
      simp [Thread.effect, frames, run]
    simp only [Thread.stepCommand?, Option.some.injEq] at step
    subst step
    split
    · exact of_raise holds (effect _) rest
    next m made =>
      split
      · exact of_outside holds (effect _) trivial (by simp) rest
      · exact of_submit holds effect (World.confined_message confined.1 confined.2 made) rest
          fun i other => World.eq_of_enqueue
  | schedule =>
    cases step
    refine of_outside holds (by simp [Thread.effect, frames, run]) trivial (by simp) ?_
    exact List.forall_mem_cons.2 ⟨trivial, rest⟩
  | scheduleConcurrently => exact confined.elim
  | runPending category =>
    have effect (d : Deed) : t.effect w d none = ([], none) := by
      simp [Thread.effect, frames, run]
    simp only [Thread.stepCommand?, Option.some.injEq] at step
    subst step
    split
    · exact of_outside holds (effect _) trivial (by simp) rest
    · exact of_outside holds (effect _) trivial (by simp) (List.forall_mem_cons.2 ⟨trivial, rest⟩)

theorem of_drain {i e : Nat} {p : DrainPoint} (holds : r.Holds none w)
    (queued : ∀ i, ∀ m ∈ w.queueAt i, m.Confined) (frames : t.frames = .drain i p e :: outer)
    (rest : ∀ f ∈ outer, f.Outside w.registry) : (t.stepDrain w i p e outer).Followed r w t none := by
  have effect (d : Deed) : t.effect w d none = ([], none) := by
    simp [Thread.effect, frames]
  have again (p : DrainPoint) : ∀ f ∈ Frame.drain i p e :: outer, f.Outside w.registry :=
    List.forall_mem_cons.2 ⟨trivial, rest⟩
  cases p with
  | enter =>
    rw [Thread.stepDrain]
    split
    · exact of_outside holds (effect _) trivial (by simp) rest
    · exact of_outside holds (effect _) trivial (by simp) (again _)
  | take | execute =>
    have queue : (w.streams[i]?).elim [] (·.queue) = w.queueAt i := rfl
    simp only [Thread.stepDrain, queue]
    split
    · exact of_outside holds (effect _) trivial (by simp) (again _)
    next m left first =>
      have confined := queued i m (by rw [first]; exact List.mem_cons_self)
      exact of_outside holds (effect _) trivial (by simp)
        (List.forall_mem_cons.2 ⟨confined, again _⟩)
  | leave => exact of_outside holds (effect _) trivial (by simp) (again _)
  | recheck =>
    rw [Thread.stepDrain]
    split
    · exact of_outside holds (effect _) trivial (by simp) rest
    · exact of_outside holds (effect _) trivial (by simp) (again _)

theorem of_run {i : Instruction} {phases : List Phase} (holds : r.Holds none w)
    (frames : t.frames = .run i phases :: outer) (confined : i.message.Confined)
    (rest : ∀ f ∈ outer, f.Outside w.registry) : (t.stepRun i phases outer).Followed r w t none := by
  have effect (d : Deed) : t.effect w d none = ([], none) := by
    simp [Thread.effect, frames]
  cases phases with
  | nil => exact of_outside holds (effect _) trivial (by simp) rest
  | cons p phases =>
    simp only [Thread.stepRun]
    split
    · exact of_raise holds (effect _) rest
    · exact of_outside holds (effect _) trivial (by simp)
        (List.forall_mem_cons.2 ⟨⟨confined, confined.behavior.moves p⟩,
          List.forall_mem_cons.2 ⟨confined, rest⟩⟩)

/-- An instruction looks its handle up when it lends the blob, and the catalog when it links. -/
theorem of_move {i : Instruction} {p : Phase} {move : Move} {moves : List Move}
    (holds : r.Holds none w) (frames : t.frames = .phase i p (move :: moves) :: outer)
    (run : t.control = .run) (confined : i.message.Confined) (works : ∀ x ∈ move :: moves, x.Works)
    (rest : ∀ f ∈ outer, f.Outside w.registry) :
    (t.stepMove w i move (.phase i p moves :: outer)).Followed r w t none := by
  obtain ⟨move_works, moves_work⟩ := List.forall_mem_cons.1 works
  have outside : ∀ f ∈ Frame.phase i p moves :: outer, f.Outside w.registry :=
    List.forall_mem_cons.2 ⟨⟨confined, moves_work⟩, rest⟩
  cases move with
  | lendBlob mode category =>
    have effect (d : Deed) : t.effect w d none = ([], none) := by
      simp [Thread.effect, frames, run]
    simp only [Thread.stepMove]
    split
    · exact of_raise holds (effect _) outside
    next handle actions found =>
      split
      · exact of_raise holds (effect _) outside
      next id bound =>
        rw [holds.env] at bound
        have inside : ∀ x ∈ actions, x.Confined := by
          obtain operand | operand := operand_of_expectCallback found <;>
            exact confined.operand _ operand
        have lent : i.lends? mode = some (handle, actions) := by
          rw [Instruction.lends?, found]
          rfl
        exact of_still holds (effect _) trivial (.lending lent bound inside outside) rfl (by simp)
  | bindPublished category =>
    have effect (d : Deed) : t.effect w d none = (i.links, none) := by
      simp [Thread.effect, frames, run]
    simp only [Thread.stepMove]
    split
    next found =>
      refine of_raise holds ?_ outside
      rw [effect, Instruction.links, found]
    next handle name found =>
      have links : i.links = [.link handle name] := by
        rw [Instruction.links, found]
      split
      next unpublished =>
        have run := (r.run_one (.link handle name)).trans (holds.link_unpublished unpublished)
        exact of_effect _ ((effect _).trans (by rw [links])) run holds (.outside outside) (by simp)
      next id published =>
        obtain ⟨r', link, holds⟩ := holds.link handle published
        exact of_effect _ ((effect _).trans (by rw [links])) ((r.run_one _).trans link) holds
          (.outside outside) (by simp)
  | _ => exact move_works.elim

/-- A step outside callbacks. -/
theorem of_step_outside {frame : Frame} {fresh : Nat} {outcomes : Nat → Option (Except Panic Reply)}
    (holds : r.Holds none w) (queued : ∀ i, ∀ m ∈ w.queueAt i, m.Confined)
    (frames : t.frames = frame :: outer) (top : frame.Outside w.registry)
    (rest : ∀ f ∈ outer, f.Outside w.registry) (step : t.step? w fresh outcomes = some s) :
    s.Followed r w t none := by
  have onto (added : List Frame) (above : ∀ f ∈ added, f.Outside w.registry) :
      ∀ f ∈ added ++ outer, f.Outside w.registry := List.forall_mem_append.2 ⟨above, rest⟩
  rw [Thread.step?, frames] at step
  cases run : t.control with
  | run =>
    rw [run] at step
    cases frame with
    | command c => exact of_command holds frames run top rest step
    | schedule left total =>
      cases left <;> cases step <;> refine of_outside holds ?_ trivial (by simp) ?_
      · simp [Thread.effect, frames, run]
      · exact rest
      · simp [Thread.effect, frames, run]
      · exact onto [_, _] (by simp [Frame.Outside])
    | drain i p e => cases step; exact of_drain holds queued frames rest
    | run i phases => cases step; exact of_run holds frames top rest
    | phase i p moves =>
      cases moves with
      | nil =>
        cases step
        exact of_outside holds (by simp [Thread.effect, frames, run]) trivial (by simp) rest
      | cons move moves => cases step; exact of_move holds frames run top.1 top.2 rest
    | _ => exact top.elim
  | reply reply =>
    rw [run] at step
    cases step
    have effect (d : Deed) : t.effect w d none = ([], none) := by
      cases frame <;> first | exact top.elim | simp [Thread.effect, frames, run]
    cases frame with
    | command => exact of_outside holds (effect _) trivial (by simp) rest
    | schedule | drain =>
      exact of_outside holds (effect _) trivial (by simp) (List.forall_mem_cons.2 ⟨trivial, rest⟩)
    | run i phases =>
      cases phases with
      | nil => exact of_outside holds (effect _) trivial (by simp) rest
      | cons p phases =>
        exact of_outside holds (effect _) trivial (by simp) (List.forall_mem_cons.2 ⟨top, rest⟩)
    | phase i p moves =>
      exact of_outside holds (effect _) trivial (by simp) (List.forall_mem_cons.2 ⟨top, rest⟩)
    | _ => exact top.elim
  | unwind panic =>
    rw [run] at step
    cases step
    have effect (d : Deed) : t.effect w d none = ([], none) := by
      cases frame <;> first | exact top.elim | simp [Thread.effect, frames, run]
    cases frame with
    | command | schedule | drain | run | phase =>
      exact of_outside holds (effect _) trivial (by simp) rest
    | _ => exact top.elim

/-- A blob is lent as soon as its lock is free. -/
theorem of_step_lending {a : Accessor} {actions : List Action} {i : Instruction} {p : Phase}
    {moves : List Move} {below : List Frame} {handle : Handle} {fresh : Nat}
    {outcomes : Nat → Option (Except Panic Reply)} (holds : r.Holds none w)
    (frames : t.frames = .borrow a actions :: .phase i p moves :: below)
    (lent : i.lends? a.mode = some (handle, actions)) (bound : r.env handle = some a.storage)
    (confined : ∀ x ∈ actions, x.Confined)
    (rest : ∀ f ∈ Frame.phase i p moves :: below, f.Outside w.registry)
    (step : t.step? w fresh outcomes = some s) : s.Followed r w t none := by
  rw [Thread.step?, frames] at step
  cases run : t.control with
  | run =>
    have effect (d : Deed) : t.effect w d none = ([], some ⟨handle, a.mode, actions, []⟩) := by
      simp [Thread.effect, frames, run, lent]
    rw [run] at step
    simp only [Thread.stepFrame?] at step
    split at step <;> cases step
    have opened : Loan.Open w.registry r ⟨handle, a.mode, actions, []⟩ a [] actions []
        (.phase i p moves :: below) := ⟨bound, rfl, rfl, by simp, confined, rest⟩
    exact of_effect [] (effect _) rfl (holds.lend bound a.mode actions)
      (.within opened fun _ _ _ => rfl) (by simp)
  | reply | unwind =>
    rw [run] at step
    cases step
    exact of_outside holds (by simp [Thread.effect, frames, run]) trivial (by simp) rest

section Callback

variable {l : Loan} {a : Accessor} {taken left : List Action} {inner below : List Frame} {fresh : Nat}
  {outcomes : Nat → Option (Except Panic Reply)}

/-- A step in a callback that comes to nothing. -/
theorem of_within {x : Thread} {seen : List Occurrence} (holds : r.Holds (some l) w)
    (effect : t.effect w .nothing (some l) = ([], some l))
    (stands : Stands w.registry r (some l) x.control x.frames) :
    Followed r w t (some l) ⟨.nothing, x, [], seen⟩ :=
  of_still holds effect trivial stands rfl (by simp)

theorem of_step_callback (holds : r.Holds (some l) w) (frames : t.frames = .callback a left :: below)
    (opened : l.Open w.registry r a taken left [] below)
    (resumes : ∀ blob, r.heap a.storage = some blob → ∀ rest,
      l.mode.resume rest [] t.control.unwinds (l.result blob) = l.mode.callback (taken ++ rest) blob)
    (step : t.step? w fresh outcomes = some s) : s.Followed r w t (some l) := by
  rw [Thread.step?, frames] at step
  cases run : t.control with
  | run =>
    rw [run] at step resumes
    cases left with
    | nil =>
      cases step
      have done (blob : Blob) (there : r.heap a.storage = some blob) :
          l.result blob = l.mode.callback l.callback blob := by
        rw [opened.plan]
        exact resumes blob there []
      obtain ⟨r', close, holds⟩ := holds.close opened.bound done
      exact of_effect [l.act] (by simp [Thread.effect, frames, run]) ((r.run_one _).trans close) holds
        (.outside opened.outside) (by simp)
    | cons x left =>
      cases step
      obtain ⟨first, confined⟩ := List.forall_mem_cons.1 opened.confined
      have next : l.Open w.registry r a (taken ++ [x]) left [.log a.category x.name] below :=
        ⟨opened.bound, opened.mode, by simp [opened.plan], by simp [Frame.Waits], confined,
          opened.outside⟩
      refine of_within holds (by simp [Thread.effect, frames, run])
        (.acting next first fun blob there more => ?_)
      rw [List.append_assoc, List.singleton_append, ← resumes blob there (x :: more)]
      simp only [AccessMode.resume, AccessMode.callback, Control.unwinds]
      cases (x.result l.mode (l.result blob)).2 <;> rfl
  | reply reply =>
    rw [run] at step resumes
    cases step
    exact of_within holds (by cases left <;> simp [Thread.effect, frames, run])
      (.within opened resumes)
  | unwind panic =>
    rw [run] at step resumes
    cases step
    have done (blob : Blob) (there : r.heap a.storage = some blob) :
        l.result blob = l.mode.callback l.callback blob := by
      rw [opened.plan]
      exact resumes blob there left
    obtain ⟨r', close, holds⟩ := holds.close opened.bound done
    exact of_effect [l.act] (by cases left <;> simp [Thread.effect, frames, run])
      ((r.run_one _).trans close) holds (.outside opened.outside) (by simp)

theorem of_step_acting {x : Action} (holds : r.Holds (some l) w)
    (frames : t.frames = .action a x :: (inner ++ .callback a left :: below)) (run : t.control = .run)
    (opened : l.Open w.registry r a taken left inner below) (act : x.Confined)
    (resumes : ∀ blob, r.heap a.storage = some blob → ∀ rest,
      l.mode.resume rest inner (!(x.result l.mode (l.result blob)).2)
          (x.result l.mode (l.result blob)).1 = l.mode.callback (taken ++ rest) blob)
    (step : t.step? w fresh outcomes = some s) : s.Followed r w t (some l) := by
  simp only [Thread.step?, frames, run, Thread.stepFrame?] at step
  cases x with
  | access x =>
    have effect (d : Deed) : t.effect w d (some l) = ([], some (l.access x)) := by
      simp [Thread.effect, frames, run]
    obtain ⟨old, there, now⟩ := holds.lent opened.bound
    have opened' : (l.access x).Open w.registry r a taken left inner below :=
      ⟨opened.bound, opened.mode, opened.plan, opened.waits, opened.confined, opened.outside⟩
    -- After the access the callback resumes with what the access has made of the blob.
    have stands {control : Control}
        (returned : control.unwinds = !(l.mode.access? (l.result old) x).isSome) :
        Stands w.registry r (some (l.access x)) control (inner ++ .callback a left :: below) := by
      refine .within opened' fun blob found more => ?_
      obtain rfl : old = blob := Option.some.inj (there.symm.trans found)
      rw [returned, Loan.result_access]
      exact resumes old there more
    simp only [Thread.stepAction?, now, Option.some.injEq] at step
    subst step
    split
    next reply new performed =>
      have changed := Accessor.access?_of_perform_ok performed
      rw [← opened.mode] at changed
      have holds := holds.access opened.bound now x
      rw [AccessMode.apply_of_some changed] at holds
      exact of_effect [] (effect _) rfl holds (stands (by rw [changed]; rfl)) (by simp)
    next panic performed =>
      have none := Accessor.access?_of_perform_error performed
      rw [← opened.mode] at none
      exact of_effect [] (effect _) rfl
        (holds.refused opened.bound now (AccessMode.apply_of_none none))
        (stands (by rw [none]; rfl)) (by simp)
  | panic message =>
    cases step
    exact of_within holds (by simp [Thread.effect, frames, run]) (.within opened resumes)
  | attempt x =>
    cases step
    have opened' : l.Open w.registry r a taken left (.catching :: inner) below :=
      { opened with waits := List.forall_mem_cons.2 ⟨trivial, opened.waits⟩ }
    exact of_within holds (by simp [Thread.effect, frames, run]) (.acting opened' act resumes)
  | _ => exact act.elim

/-- A frame that waits hands on what it is handed, or turns a panic into a reply. -/
theorem of_step_waiting {frame : Frame} (holds : r.Holds (some l) w)
    (frames : t.frames = frame :: (inner ++ .callback a left :: below))
    (opened : l.Open w.registry r a taken left (frame :: inner) below)
    (resumes : ∀ blob, r.heap a.storage = some blob → ∀ rest,
      l.mode.resume rest (frame :: inner) t.control.unwinds (l.result blob) =
        l.mode.callback (taken ++ rest) blob)
    (step : t.step? w fresh outcomes = some s) : s.Followed r w t (some l) := by
  obtain ⟨top, waits⟩ := List.forall_mem_cons.1 opened.waits
  have opened' : l.Open w.registry r a taken left inner below := { opened with waits := waits }
  rw [Thread.step?, frames] at step
  cases run : t.control <;> rw [run] at step resumes <;> cases frame with
  | log | catching =>
    cases step
    exact of_within holds (by simp [Thread.effect, frames, run]) (.within opened' resumes)
  | _ => exact top.elim

end Callback

theorem of_step {fresh : Nat} {outcomes : Nat → Option (Except Panic Reply)}
    (holds : r.Holds loan w) (queued : ∀ i, ∀ m ∈ w.queueAt i, m.Confined)
    (stands : Stands w.registry r loan t.control t.frames) (step : t.step? w fresh outcomes = some s) :
    s.Followed r w t loan := by
  generalize run : t.control = control, frames : t.frames = stack at stands
  cases stands with
  | outside outside =>
    cases stack with
    | nil =>
      rw [Thread.step?, frames] at step
      cases step
    | cons frame outer =>
      obtain ⟨top, rest⟩ := List.forall_mem_cons.1 outside
      exact of_step_outside holds queued frames top rest step
  | lending lent bound confined outside =>
    exact of_step_lending holds frames lent bound confined outside step
  | @within _ l a taken left inner below opened resumes =>
    subst run
    cases inner with
    | nil => exact of_step_callback holds frames opened resumes step
    | cons frame inner => exact of_step_waiting holds frames opened resumes step
  | acting opened act resumes => exact of_step_acting holds frames run opened act resumes step

end Step.Followed

/-- A confined thread never waits: when a blob is to be lent, its lock is free. -/
theorem Stands.goes {registry : Registry} (stands : Stands registry r loan t.control t.frames)
    (holds : r.Holds loan w) (busy : t.frames ≠ []) (fresh : Nat)
    (outcomes : Nat → Option (Except Panic Reply)) : ∃ s, t.step? w fresh outcomes = some s := by
  generalize run : t.control = control, frames : t.frames = stack at stands busy
  cases control with
  | reply | unwind =>
    cases stack with
    | nil => exact (busy rfl).elim
    | cons => exact ⟨_, by rw [Thread.step?, frames, run]⟩
  | run =>
    rw [Thread.step?, frames, run]
    cases stands with
    | outside outside =>
      cases stack with
      | nil => exact (busy rfl).elim
      | cons frame outer =>
        have top := outside frame List.mem_cons_self
        cases frame with
        | command c =>
          cases c with
          | store c =>
            simp only [Thread.stepFrame?, Thread.stepCommand?]
            cases found : w.storeCommand? c with
            | error panic => exact ⟨_, rfl⟩
            | ok answer =>
              obtain ⟨reply, d, rfl, -⟩ := World.answer_of_storeCommand? holds top found
              exact ⟨_, rfl⟩
          | _ => exact ⟨_, rfl⟩
        | schedule left => cases left <;> exact ⟨_, rfl⟩
        | drain | run => exact ⟨_, rfl⟩
        | phase i p moves => cases moves <;> exact ⟨_, rfl⟩
        | _ => exact top.elim
    | lending lent bound =>
      simp only [Thread.stepFrame?, holds.canAcquire (holds.sound.bound _ _ bound)]
      exact ⟨_, rfl⟩
    | @within _ l a taken left inner below opened =>
      cases inner with
      | nil => cases left <;> exact ⟨_, rfl⟩
      | cons frame inner =>
        have top := opened.waits frame List.mem_cons_self
        cases frame with
        | log | catching => exact ⟨_, rfl⟩
        | _ => exact top.elim
    | @acting l a x taken left inner below opened act =>
      cases x <;> first | exact act.elim | exact ⟨_, rfl⟩

/-! A callback comes to its end: every step of it leaves less to do. -/

def Action.weight : Action → Nat
  | .attempt action => action.weight + 3
  | _ => 2

/-- What is left to do of the innermost callback of a stack. -/
def weigh : List Frame → Nat
  | .callback _ left :: _ => left.foldr (fun x n => x.weight + 3 + n) 0
  | .action _ x :: outer => x.weight + weigh outer
  | _ :: outer => 2 + weigh outer
  | [] => 0

def Thread.weight (t : Thread) : Nat :=
  match t.control with
  | .run => weigh t.frames
  | _ => weigh t.frames + 1

theorem Thread.weight_le (t : Thread) : t.weight ≤ weigh t.frames + 1 := by
  rw [weight]
  split <;> omega

/-- What the innermost callback of a stack stands on. -/
def under : List Frame → List Frame
  | .callback .. :: below => below
  | _ :: outer => under outer
  | [] => []

theorem Stands.continues {registry : Registry} {l : Loan} {fresh : Nat}
    {outcomes : Nat → Option (Except Panic Reply)}
    (stands : Stands registry r (some l) t.control t.frames) (step : t.step? w fresh outcomes = some s) :
    (t.effect w s.deed (some l) = ([l.act], none) ∧ s.thread.frames = under t.frames ∧
      s.thread.control ≠ .run) ∨
    ∃ l', t.effect w s.deed (some l) = ([], some l') ∧ l'.act = l.act ∧ s.thread.frames ≠ [] ∧
      under s.thread.frames = under t.frames ∧ s.thread.weight < t.weight := by
  generalize run : t.control = control, frames : t.frames = stack at stands
  rw [Thread.step?, frames, run] at step
  cases stands with
  | @within control l a taken left inner below opened =>
    cases inner with
    | nil =>
      cases control with
      | run =>
        cases left with
        | nil =>
          cases step
          exact .inl ⟨by simp [Thread.effect, frames, run], rfl, by simp [Thread.give]⟩
        | cons x left =>
          cases step
          refine .inr ⟨l, by simp [Thread.effect, frames, run], rfl, by simp [Thread.goto], rfl, ?_⟩
          simp only [Thread.weight, Thread.goto, run, frames, List.nil_append, weigh, List.foldr_cons]
          omega
      | reply reply =>
        cases step
        refine .inr ⟨l, by cases left <;> simp [Thread.effect, frames, run], rfl,
          by simp [Thread.stepReply, Thread.goto], rfl, ?_⟩
        simp [Thread.weight, Thread.stepReply, Thread.goto, run, frames, weigh]
      | unwind panic =>
        cases step
        exact .inl ⟨by cases left <;> simp [Thread.effect, frames, run], rfl,
          by simp [Thread.stepUnwind, Thread.fail]⟩
    | cons frame inner =>
      have top := opened.waits frame List.mem_cons_self
      cases control <;> cases frame with
      | log | catching =>
        cases step
        refine .inr ⟨l, by simp [Thread.effect, frames, run], rfl,
          by simp [Thread.stepReply, Thread.stepUnwind, Thread.give, Thread.fail], rfl, ?_⟩
        simp only [Thread.weight, Thread.stepReply, Thread.stepUnwind, Thread.give, Thread.fail, run,
          frames, List.cons_append, List.append_eq, weigh]
        omega
      | _ => exact top.elim
  | @acting l a x taken left inner below opened act =>
    cases x with
    | access x =>
      simp only [Thread.stepFrame?, Thread.stepAction?, Option.some.injEq] at step
      have rest : s.thread.frames = inner ++ .callback a left :: below := by
        subst step
        split
        · rfl
        · split <;> rfl
      refine .inr ⟨l.access x, by simp [Thread.effect, frames, run], rfl, by simp [rest],
        by rw [rest]; rfl, ?_⟩
      have least := s.thread.weight_le
      rw [rest] at least
      simp only [Thread.weight, run, frames, weigh, Action.weight] at least ⊢
      omega
    | panic message =>
      cases step
      refine .inr ⟨l, by simp [Thread.effect, frames, run], rfl, by simp [Thread.raise, Thread.fail],
        rfl, ?_⟩
      simp [Thread.weight, Thread.raise, Thread.fail, run, frames, weigh, Action.weight]
      omega
    | attempt x =>
      cases step
      refine .inr ⟨l, by simp [Thread.effect, frames, run], rfl, by simp [Thread.goto], rfl, ?_⟩
      simp [Thread.weight, Thread.goto, run, frames, weigh, Action.weight]
      omega
    | _ => exact act.elim

end StreamMachine
