import StreamMachine.Proofs.Alone
import StreamMachine.Proofs.Idle

/-! Shares of a machine. A worker whose instructions work on the blobs that they are lent keeps to
its stream, to the storages of those blobs, and to the gates that its callbacks name. Workers with
different storages and no gates are separate. -/
namespace StreamMachine

/-- Some of the streams, of the storages, of the handles and of the gates. -/
structure Share where
  streams : Set Nat
  storages : Set StorageId
  handles : Set Handle
  gates : Set String

namespace Share

/-- What may be changed. -/
def owned (p : Share) : Set Resource :=
  Resource.stream '' p.streams ∪ Resource.storage '' p.storages ∪ Resource.gate '' p.gates

/-- What may be looked at: besides that, the handles and the whole catalog, and the order of the
streams if all of them are in the share. -/
def seen (p : Share) : Set Resource :=
  p.owned ∪ Resource.handle '' p.handles ∪ Set.range Resource.published ∪
    {r | r = .order ∧ p.streams = Set.univ}

variable {p : Share} {s : Nat} {id : StorageId} {gate : String}

theorem stream_mem_seen (hs : s ∈ p.streams) : .stream s ∈ p.seen := by simp [seen, owned, hs]

theorem storage_mem_seen : .storage id ∈ p.seen ↔ id ∈ p.storages := by simp [seen, owned]

theorem handle_mem_seen {handle : Handle} : .handle handle ∈ p.seen ↔ handle ∈ p.handles := by
  simp [seen, owned]

theorem gate_mem_seen (hg : gate ∈ p.gates) : .gate gate ∈ p.seen := by simp [seen, owned, hg]

theorem everyStream_subset (all : p.streams = Set.univ) : everyStream ⊆ p.seen := by
  refine Set.insert_subset (.inr ⟨rfl, all⟩) ?_
  rintro _ ⟨s, rfl⟩
  exact stream_mem_seen (all ▸ Set.mem_univ s)

end Share

/-- Drains of all streams, and questions about streams, are for those only that have all of them. -/
def Command.Keeps (p : Share) : Command → Prop
  | .schedule | .query _ => p.streams = Set.univ
  | _ => False

def Action.Keeps (p : Share) : Action → Prop
  | .access _ | .panic _ => True
  | .attempt action => action.Keeps p
  | .step command => command.Keeps p
  | .signal gate | .wait gate => gate ∈ p.gates
  | .thread _ => False

def Move.Keeps (p : Share) : Move → Prop
  | .report .. | .panic _ | .drainOwn | .lendBlob .. => True
  | .issue command => command.Keeps p
  | .bindPublished _ => False

/-- The blob is in the share, and the callback works on nothing else. -/
def Operand.Keeps (p : Share) (w : World) : Operand → Prop
  | .write handle actions | .read handle actions =>
    handle ∈ p.handles ∧ (∀ id, w.store.binding? handle = some id → id ∈ p.storages) ∧
      ∀ a ∈ actions, a.Keeps p
  | _ => True

structure Message.Keeps (p : Share) (w : World) (m : Message) : Prop where
  moves : ∀ phase, ∀ move ∈ m.descriptor.behavior.moves phase, move.Keeps p
  operand : ∀ operand, m.operand = some operand → operand.Keeps p w

def Frame.Keeps (p : Share) (w : World) : Frame → Prop
  | .command c => c.Keeps p
  | .schedule left _ => ∀ s ∈ left, s ∈ p.streams
  | .drain s _ _ | .logDrain s => s ∈ p.streams
  | .run i _ => i.stream ∈ p.streams ∧ i.message.Keeps p w
  | .phase i _ moves => i.stream ∈ p.streams ∧ i.message.Keeps p w ∧ ∀ move ∈ moves, move.Keeps p
  | .borrow a actions | .callback a actions => a.storage ∈ p.storages ∧ ∀ x ∈ actions, x.Keeps p
  | .action a act => a.storage ∈ p.storages ∧ act.Keeps p
  | .log _ _ | .catching => True
  | .helper _ | .join _ => False

def Deed.Keeps (p : Share) : Deed → Prop
  | .nothing => True
  | .pop s | .setExecuting s _ | .complete s => s ∈ p.streams
  | .acquire _ id | .release id | .setBlob id _ => id ∈ p.storages
  | .signal gate => gate ∈ p.gates
  | _ => False

/-- A step that keeps to the share and hands no message to a stream. -/
structure Step.Keeps (p : Share) (w : World) (r : Step) : Prop where
  deed : r.deed.Keeps p
  frames : ∀ frame ∈ r.thread.frames, frame.Keeps p w
  quiet : ∀ i m, .accepted i m ∉ r.seen

/-- All queued messages of the share keep to it. -/
def World.Keeps (w : World) (p : Share) (w₀ : World) : Prop :=
  ∀ s ∈ p.streams, ∀ m ∈ w.queueAt s, m.Keeps p w₀

section

variable {p : Share} {w₀ w : World} {t : Thread} {frame : Frame} {outer : List Frame}

theorem Step.Keeps.of_raise {panic : Panic} (rest : ∀ frame ∈ outer, frame.Keeps p w₀) :
    (t.raise outer panic).Keeps p w₀ := by
  refine ⟨trivial, rest, fun i m => ?_⟩
  cases panic <;> simp [Thread.raise, Thread.notice]

theorem Step.Keeps.of_drain {s e : Nat} {point : DrainPoint} (hs : s ∈ p.streams)
    (queues : w.Keeps p w₀) (rest : ∀ frame ∈ outer, frame.Keeps p w₀) :
    (t.stepDrain w s point e outer).Keeps p w₀ := by
  have again (point : DrainPoint) : ∀ frame ∈ Frame.drain s point e :: outer, frame.Keeps p w₀ :=
    List.forall_mem_cons.2 ⟨hs, rest⟩
  cases point with
  | enter =>
    rw [Thread.stepDrain]
    split
    · exact ⟨trivial, rest, by simp⟩
    · exact ⟨hs, again _, by simp⟩
  | take | execute =>
    have queue : (w.streams[s]?).elim [] (·.queue) = w.queueAt s := rfl
    simp only [Thread.stepDrain, queue]
    split
    · exact ⟨trivial, again _, by simp⟩
    next m queue found =>
      have keeps := queues s hs m (by rw [found]; exact List.mem_cons_self)
      exact ⟨hs, List.forall_mem_cons.2 ⟨⟨hs, keeps⟩, again _⟩, by simp⟩
  | leave => exact ⟨hs, again _, by simp [Thread.stepDrain]⟩
  | recheck =>
    rw [Thread.stepDrain]
    split
    · exact ⟨trivial, rest, by simp⟩
    · exact ⟨trivial, again _, by simp⟩

theorem Step.Keeps.of_run {i : Instruction} {phases : List Phase} (hs : i.stream ∈ p.streams)
    (keeps : i.message.Keeps p w₀) (rest : ∀ frame ∈ outer, frame.Keeps p w₀) :
    (t.stepRun i phases outer).Keeps p w₀ := by
  cases phases with
  | nil => exact ⟨trivial, rest, by simp [Thread.stepRun]⟩
  | cons phase phases =>
    simp only [Thread.stepRun]
    split
    · exact .of_raise rest
    · refine ⟨trivial, List.forall_mem_cons.2 ⟨⟨hs, keeps, keeps.moves phase⟩, ?_⟩, by simp⟩
      exact List.forall_mem_cons.2 ⟨⟨hs, keeps⟩, rest⟩

/-- The operand that a callback comes from. -/
theorem operand_of_expectCallback {i : Instruction} {mode : AccessMode} {handle : Handle}
    {actions : List Action}
    (h : i.operand >>= Operand.expectCallback mode i.name = .ok (handle, actions)) :
    i.message.operand = some (.write handle actions) ∨
      i.message.operand = some (.read handle actions) := by
  rw [Instruction.operand] at h
  cases found : i.message.operand with
  | none =>
    rw [found] at h
    cases h
  | some operand =>
    rw [found] at h
    cases mode <;> cases operand <;> cases h <;> simp

theorem Step.Keeps.of_move {i : Instruction} {move : Move}
    (bindings : ∀ h, w.store.binding? h = w₀.store.binding? h) (hs : i.stream ∈ p.streams)
    (keeps : i.message.Keeps p w₀) (allowed : move.Keeps p)
    (rest : ∀ frame ∈ outer, frame.Keeps p w₀) : (t.stepMove w i move outer).Keeps p w₀ := by
  cases move with
  | report what query =>
    simp only [Thread.stepMove]
    split
    · exact ⟨trivial, rest, by simp⟩
    · exact .of_raise rest
  | panic message => exact .of_raise rest
  | drainOwn =>
    exact ⟨trivial, List.forall_mem_cons.2 ⟨hs, List.forall_mem_cons.2 ⟨hs, rest⟩⟩,
      by simp [Thread.stepMove]⟩
  | issue command =>
    exact ⟨trivial, List.forall_mem_cons.2 ⟨allowed, rest⟩, by simp [Thread.stepMove]⟩
  | lendBlob mode bound =>
    simp only [Thread.stepMove]
    split
    · exact .of_raise rest
    next handle actions found =>
      split
      · exact .of_raise rest
      next id bound =>
        rw [bindings] at bound
        have inside : id ∈ p.storages ∧ ∀ a ∈ actions, a.Keeps p := by
          obtain operand | operand := operand_of_expectCallback found
          all_goals
            obtain ⟨-, storages, actions⟩ := keeps.operand _ operand
            exact ⟨storages id bound, actions⟩
        exact ⟨trivial, List.forall_mem_cons.2 ⟨inside, rest⟩, by simp [Thread.notice]⟩
  | bindPublished bound => exact allowed.elim

theorem Step.Keeps.of_action {a : Accessor} {action : Action} {r : Step}
    (ha : a.storage ∈ p.storages) (allowed : action.Keeps p)
    (rest : ∀ frame ∈ outer, frame.Keeps p w₀) (step : t.stepAction? w a action outer = some r) :
    r.Keeps p w₀ := by
  cases action with
  | access access =>
    simp only [Thread.stepAction?, Option.some.injEq] at step
    subst step
    split
    · exact .of_raise rest
    · split
      · exact ⟨ha, rest, by simp⟩
      · exact .of_raise rest
  | panic message =>
    cases step
    exact .of_raise rest
  | attempt action =>
    cases step
    exact ⟨trivial, List.forall_mem_cons.2 ⟨⟨ha, allowed⟩, List.forall_mem_cons.2 ⟨trivial, rest⟩⟩,
      by simp⟩
  | step command =>
    cases step
    exact ⟨trivial, List.forall_mem_cons.2 ⟨allowed, rest⟩, by simp⟩
  | signal gate =>
    cases step
    exact ⟨allowed, rest, by simp⟩
  | wait gate =>
    rw [Thread.stepAction?] at step
    split at step <;> cases step
    exact ⟨trivial, rest, by simp⟩
  | thread => exact allowed.elim

theorem Step.Keeps.of_command {command : Command} {fresh : Nat} {r : Step}
    (allowed : command.Keeps p) (rest : ∀ frame ∈ outer, frame.Keeps p w₀)
    (step : t.stepCommand? w fresh command outer = some r) : r.Keeps p w₀ := by
  cases command with
  | schedule =>
    cases step
    have all (s : Nat) : s ∈ p.streams := Set.eq_univ_iff_forall.1 allowed s
    exact ⟨trivial, List.forall_mem_cons.2 ⟨fun s _ => all s, rest⟩, by simp⟩
  | query command =>
    simp only [Thread.stepCommand?, Option.some.injEq] at step
    subst step
    split
    · exact .of_raise rest
    · exact ⟨trivial, rest, by simp⟩
  | _ => exact allowed.elim

theorem Step.Keeps.of_frame {fresh : Nat} {outcomes : Nat → Option (Except Panic Reply)} {r : Step}
    (bindings : ∀ h, w.store.binding? h = w₀.store.binding? h) (queues : w.Keeps p w₀)
    (allowed : frame.Keeps p w₀) (rest : ∀ frame ∈ outer, frame.Keeps p w₀)
    (step : t.stepFrame? w fresh outcomes frame outer = some r) : r.Keeps p w₀ := by
  cases frame with
  | command command => exact .of_command allowed rest step
  | schedule left total =>
    cases left with
    | nil =>
      cases step
      exact ⟨trivial, rest, by simp⟩
    | cons s left =>
      cases step
      obtain ⟨hs, left⟩ := List.forall_mem_cons.1 allowed
      exact ⟨trivial, List.forall_mem_cons.2 ⟨hs, List.forall_mem_cons.2 ⟨left, rest⟩⟩, by simp⟩
  | drain s point e =>
    cases step
    exact .of_drain allowed queues rest
  | run i phases =>
    cases step
    exact .of_run allowed.1 allowed.2 rest
  | phase i phase moves =>
    obtain ⟨hs, keeps, moves'⟩ := allowed
    cases moves with
    | nil =>
      cases step
      exact ⟨trivial, rest, by simp⟩
    | cons move moves =>
      cases step
      obtain ⟨first, others⟩ := List.forall_mem_cons.1 moves'
      exact .of_move bindings hs keeps first (List.forall_mem_cons.2 ⟨⟨hs, keeps, others⟩, rest⟩)
  | borrow a actions =>
    rw [Thread.stepFrame?] at step
    split at step <;> cases step
    exact ⟨allowed.1, List.forall_mem_cons.2 ⟨allowed, rest⟩, by simp⟩
  | callback a actions =>
    cases actions with
    | nil =>
      cases step
      exact ⟨allowed.1, rest, by simp⟩
    | cons action actions =>
      cases step
      obtain ⟨first, others⟩ := List.forall_mem_cons.1 allowed.2
      exact ⟨trivial, List.forall_mem_cons.2 ⟨⟨allowed.1, first⟩, List.forall_mem_cons.2 ⟨trivial,
        List.forall_mem_cons.2 ⟨⟨allowed.1, others⟩, rest⟩⟩⟩, by simp⟩
  | action a action => exact .of_action allowed.1 allowed.2 rest step
  | log | logDrain | catching =>
    cases step
    exact ⟨trivial, rest, by simp⟩
  | helper | join => exact allowed.elim

theorem Step.Keeps.of_reply (reply : Reply) (allowed : frame.Keeps p w₀)
    (rest : ∀ frame ∈ outer, frame.Keeps p w₀) : (t.stepReply w reply frame outer).Keeps p w₀ := by
  cases frame with
  | drain s point e => exact ⟨allowed, List.forall_mem_cons.2 ⟨allowed, rest⟩, by simp [Thread.stepReply]⟩
  | run i phases =>
    cases phases with
    | nil => exact ⟨trivial, rest, by simp [Thread.stepReply]⟩
    | cons phase phases =>
      exact ⟨trivial, List.forall_mem_cons.2 ⟨allowed, rest⟩, by simp [Thread.stepReply]⟩
  | schedule | phase | callback =>
    exact ⟨trivial, List.forall_mem_cons.2 ⟨allowed, rest⟩, by simp [Thread.stepReply]⟩
  | helper | join => exact allowed.elim
  | _ => exact ⟨trivial, rest, by simp [Thread.stepReply]⟩

theorem Step.Keeps.of_unwind (panic : Panic) (allowed : frame.Keeps p w₀)
    (rest : ∀ frame ∈ outer, frame.Keeps p w₀) : (t.stepUnwind panic frame outer).Keeps p w₀ := by
  cases frame with
  | drain s point e => exact ⟨allowed, rest, by simp [Thread.stepUnwind]⟩
  | callback a actions => exact ⟨allowed.1, rest, by simp [Thread.stepUnwind]⟩
  | helper | join => exact allowed.elim
  | _ => exact ⟨trivial, rest, by simp [Thread.stepUnwind]⟩

theorem Command.Keeps.reads_subset {command : Command} (allowed : command.Keeps p) :
    command.reads w ⊆ p.seen := by
  cases command with
  | schedule => exact Share.everyStream_subset allowed
  | query command =>
    cases command with
    | pending | debug => exact Share.everyStream_subset allowed
    | isExecuting category | stream category =>
      rintro _ ⟨s, -, rfl⟩
      exact Share.stream_mem_seen (Set.eq_univ_iff_forall.1 allowed s)
    | lookup | names => exact Set.empty_subset _
  | _ => exact allowed.elim

theorem Action.Keeps.reads_subset {a : Accessor} {action : Action} (ha : a.storage ∈ p.storages)
    (allowed : action.Keeps p) : action.reads a ⊆ p.seen := by
  have own := Share.storage_mem_seen.2 ha
  cases action with
  | access access =>
    cases access with
    | describe =>
      exact Set.insert_subset own fun r hr => .inl (.inr hr)
    | _ => exact Set.singleton_subset_iff.2 own
  | wait gate => exact Set.singleton_subset_iff.2 (Share.gate_mem_seen allowed)
  | _ => exact Set.empty_subset _

theorem Frame.Keeps.reads_subset (allowed : frame.Keeps p w₀) : frame.reads w ⊆ p.seen := by
  cases frame with
  | command command => exact Command.Keeps.reads_subset allowed
  | drain s point e => exact Set.singleton_subset_iff.2 (Share.stream_mem_seen allowed)
  | phase i phase moves =>
    cases moves with
    | nil => exact Set.empty_subset _
    | cons move moves =>
      have first := (List.forall_mem_cons.1 allowed.2.2).1
      cases move with
      | lendBlob mode bound =>
        rintro _ ⟨h, ⟨actions, found⟩, rfl⟩
        refine Share.handle_mem_seen.2 ?_
        obtain operand | operand := operand_of_expectCallback found
        · exact (allowed.2.1.operand _ operand).1
        · exact (allowed.2.1.operand _ operand).1
      | bindPublished bound => exact first.elim
      | _ => exact Set.empty_subset _
  | borrow a actions => exact Set.singleton_subset_iff.2 (Share.storage_mem_seen.2 allowed.1)
  | action a action => exact Action.Keeps.reads_subset allowed.1 allowed.2
  | join => exact allowed.elim
  | _ => exact Set.empty_subset _

theorem Thread.reads_subset_of_keeps (allowed : ∀ frame ∈ t.frames, frame.Keeps p w₀) :
    t.reads w ⊆ p.seen := by
  obtain ⟨frames, control, spans⟩ := t
  cases frames with
  | nil => exact Set.empty_subset _
  | cons frame rest =>
    have first := allowed frame List.mem_cons_self
    cases control with
    | run => exact first.reads_subset
    | reply reply =>
      cases frame with
      | logDrain s =>
        exact Set.singleton_subset_iff.2 (Share.stream_mem_seen first)
      | _ => exact Set.empty_subset _
    | unwind panic => cases frame <;> exact Set.empty_subset _

theorem Deed.Keeps.changes_subset {d : Deed} (h : d.Keeps p) : d.changes w ⊆ p.owned := by
  cases d with
  | nothing => exact Set.empty_subset _
  | pop s | setExecuting s b | complete s =>
    exact Set.singleton_subset_iff.2 (.inl (.inl ⟨s, h, rfl⟩))
  | acquire mode id | release id | setBlob id blob =>
    exact Set.singleton_subset_iff.2 (.inl (.inr ⟨id, h, rfl⟩))
  | signal gate => exact Set.singleton_subset_iff.2 (.inr ⟨gate, h, rfl⟩)
  | _ => exact h.elim

/-- Queues only get shorter, and handles stay bound to what they are bound to. -/
theorem Deed.Keeps.after {d : Deed} (h : d.Keeps p) (s : Nat) :
    (w.after d).queueAt s ⊆ w.queueAt s ∧
      ∀ handle, (w.after d).store.binding? handle = w.store.binding? handle := by
  cases d with
  | pop i =>
    refine ⟨?_, fun _ => rfl⟩
    rw [World.queueAt_pop]
    split
    · exact (List.tail_sublist _).subset
    · exact List.Subset.refl _
  | setExecuting | complete =>
    refine ⟨?_, fun _ => rfl⟩
    first | rw [World.queueAt_setExecuting] | rw [World.queueAt_complete]
    exact List.Subset.refl _
  | nothing | acquire | release | setBlob | signal => exact ⟨List.Subset.refl _, fun _ => rfl⟩
  | _ => exact h.elim

end

/-- A worker that keeps to a share, and what is queued for it does so too. -/
structure Solo.Keeps (x : Solo) (p : Share) (w : World) : Prop where
  frames : ∀ frame ∈ x.thread.frames, frame.Keeps p w
  queues : x.world.Keeps p w
  bindings : ∀ handle, x.world.store.binding? handle = w.store.binding? handle
  quiet : ∀ i m, .accepted i m ∉ x.seen

namespace World

variable {p : Share} {w : World} {s : Nat}

theorem Keeps.step? {x : Solo} (h : x.Keeps p w) {r : Step} (step : x.step? = some r) :
    r.Keeps p w := by
  obtain ⟨world, ⟨frames, control, spans⟩, seen⟩ := x
  cases frames with
  | nil => cases step
  | cons frame rest =>
    obtain ⟨first, others⟩ := List.forall_mem_cons.1 h.frames
    cases control with
    | run => exact .of_frame h.bindings h.queues first others step
    | reply reply =>
      cases step
      exact .of_reply reply first others
    | unwind panic =>
      cases step
      exact .of_unwind panic first others

/-- A worker whose messages keep to a share does so in all that it does. -/
theorem Keeps.alone (h : w.Keeps p w) (hs : s ∈ p.streams) (n : Nat) :
    (w.alone s n).Keeps p w := by
  induction n with
  | zero => exact ⟨List.forall_mem_singleton.2 hs, h, fun _ => rfl, fun _ _ => List.not_mem_nil⟩
  | succ n ih =>
    rw [World.alone, Solo.next]
    split
    · exact ih
    next r step =>
      have keeps := Keeps.step? ih step
      refine ⟨keeps.frames, fun i hi m hm => ?_, fun handle => ?_, fun i m => ?_⟩
      · exact ih.queues i hi m ((keeps.deed.after i).1 hm)
      · rw [(keeps.deed.after s).2, ih.bindings]
      · rw [List.mem_append, not_or]
        exact ⟨ih.quiet i m, keeps.quiet i m⟩

theorem Keeps.changedBy_subset (h : w.Keeps p w) (hs : s ∈ p.streams) :
    w.changedBy s ⊆ p.owned := by
  rintro r ⟨n, d, step, changed⟩
  exact (Keeps.step? (h.alone hs n) step).deed.changes_subset changed

theorem Keeps.touchedBy_subset (h : w.Keeps p w) (hs : s ∈ p.streams) :
    w.touchedBy s ⊆ p.seen := by
  rintro r ⟨n, looked | changed⟩
  · exact Thread.reads_subset_of_keeps (h.alone hs n).frames looked
  · exact .inl (.inl (.inl (h.changedBy_subset hs ⟨n, changed⟩)))

/-- Workers whose instructions are lent blobs over different storages, and use no gates, are
separate. -/
theorem separate_of_keeps {storages : Nat → Set StorageId}
    {handles : Nat → Set Handle} (keeps : ∀ s, w.Keeps ⟨{s}, storages s, handles s, ∅⟩ w)
    (apart : ∀ s s', s ≠ s' → ∀ id ∈ storages s, id ∉ storages s') : w.Separate where
  apart s s' other r changed touched := by
    have changed := (keeps s).changedBy_subset rfl changed
    have touched := (keeps s').touchedBy_subset rfl touched
    obtain (⟨i, rfl, rfl⟩ | ⟨id, hi, rfl⟩) | ⟨gate, none, -⟩ := changed
    · simp [Share.seen, Share.owned, other] at touched
    · exact apart s s' other id hi (Share.storage_mem_seen.1 touched)
    · exact none
  single s touched := by
    have := (keeps s).touchedBy_subset rfl touched
    simp [Share.seen, Share.owned] at this

end World

/-- A message of a category whose instruction lends the blob of a handle for writing. -/
def Message.lending (category : StreamCategory) (handle : Handle) (actions : List Action) : Message :=
  ⟨⟨"lending", 0, category, .lending .write category⟩, some (.write handle actions)⟩

theorem Message.keeps_lending {p : Share} {w : World} {category : StreamCategory} {handle : Handle}
    {id : StorageId} {actions : List Action} (hh : handle ∈ p.handles)
    (bound : w.store.binding? handle = some id) (hi : id ∈ p.storages)
    (ha : ∀ a ∈ actions, a.Keeps p) : (Message.lending category handle actions).Keeps p w where
  moves phase move mem := by
    cases phase with
    | infer => cases mem
    | compute =>
      obtain rfl := List.mem_singleton.1 mem
      trivial
  operand operand found := by
    cases found
    refine ⟨hh, fun id' bound' => ?_, ha⟩
    obtain rfl := Option.some.inj (bound.symm.trans bound')
    exact hi

theorem Message.keeps_probe {p : Share} {w : World} {category : StreamCategory}
    {infer compute : List Move} (hi : ∀ move ∈ infer, move.Keeps p)
    (hc : ∀ move ∈ compute, move.Keeps p) : (Message.probe category infer compute).Keeps p w where
  moves phase := by cases phase <;> assumption
  operand operand found := by cases found

/-- A byte for each of two streams. -/
def World.lent (w : World) : World :=
  (w.after (.newBlob "a" ⟨.scalar, .u8, [0]⟩)).after (.newBlob "b" ⟨.scalar, .u8, [0]⟩)

theorem reaches_lent (w : World) : ∃ seen threads, Machine.Reaches ⟨w, []⟩ seen ⟨w.lent, threads⟩ ∧
    ∀ t ∈ threads, t.frames = [] := by
  have first : Machine.Reaches ⟨w, []⟩ _ _ :=
    (Machine.Reaches.refl.move (.call (.store (.newBlob "a" (.zeros .scalar .u8))))).move (.step 0 rfl)
  have second := (first.move (.call (.store (.newBlob "b" (.zeros .scalar .u8))))).move (.step 1 rfl)
  exact ⟨_, [⟨[], .reply (.text "a"), []⟩, ⟨[], .reply (.text "b"), []⟩], second, by simp⟩

def lentPair : World := idlePair.lent

theorem lentPair_idle : lentPair.Idle := by
  obtain ⟨seen, threads, reached, ended⟩ := reaches_lent idlePair
  have created : World.create {} .empty = .ok idlePair := rfl
  exact World.idle_of_reaches created reached ended

/-- Messages that are lent the first byte on the host, or the second one on the processor. -/
def Message.Lent (m : Message) : Prop :=
  ∃ actions, (∀ a ∈ actions, ∀ p, a.Keeps p) ∧
    (m = .lending .host ⟨"a", 0⟩ actions ∨ m = .lending .cpu ⟨"b", 0⟩ actions)

/-- One of two for the host's stream, and the other for that of the processor. -/
def forPair {α : Type} (x y : α) (s : Nat) : Set α := {a | s = 0 ∧ a = x ∨ s = 1 ∧ a = y}

theorem forPair_apart {α : Type} {x y : α} (different : x ≠ y) {s s' : Nat} (other : s ≠ s') :
    ∀ a ∈ forPair x y s, a ∉ forPair x y s' := by
  rintro a (⟨rfl, rfl⟩ | ⟨rfl, rfl⟩) (⟨rfl, same⟩ | ⟨rfl, same⟩)
  · exact other rfl
  · exact different same
  · exact different same.symm
  · exact other rfl

def lentBytes : Nat → Set StorageId := forPair ⟨.blob "a", 0⟩ ⟨.blob "b", 0⟩

def lentHandles : Nat → Set Handle := forPair ⟨"a", 0⟩ ⟨"b", 0⟩

theorem lentBytes_apart {s s' : Nat} (other : s ≠ s') : ∀ id ∈ lentBytes s, id ∉ lentBytes s' :=
  forPair_apart (by decide) other

theorem lentHandles_apart {s s' : Nat} (other : s ≠ s') :
    ∀ handle ∈ lentHandles s, handle ∉ lentHandles s' :=
  forPair_apart (by decide) other

theorem separate_lentPair {messages : List Message} (lent : ∀ m ∈ messages, m.Lent) :
    (lentPair.receiveAll messages).Separate := by
  have store := (lentPair_idle.receiveAll_rest messages).2.1
  have first : (lentPair.receiveAll messages).store.binding? ⟨"a", 0⟩ = some ⟨.blob "a", 0⟩ := by
    rw [store]
    rfl
  have second : (lentPair.receiveAll messages).store.binding? ⟨"b", 0⟩ = some ⟨.blob "b", 0⟩ := by
    rw [store]
    rfl
  have keeps (s : Nat) : (lentPair.receiveAll messages).Keeps ⟨{s}, lentBytes s, Set.univ, ∅⟩
      (lentPair.receiveAll messages) := by
    rintro i rfl m hm
    rw [World.queueAt, lentPair_idle.streams_receiveAll] at hm
    rcases i with _ | _ | i
    · obtain ⟨mem, category⟩ := List.mem_filter.1 (show m ∈ World.ofCategory .host messages from hm)
      obtain ⟨actions, keeps, rfl | rfl⟩ := lent m mem
      · exact Message.keeps_lending (Set.mem_univ _) first (.inl ⟨rfl, rfl⟩) fun a ha => keeps a ha _
      · cases category
    · obtain ⟨mem, category⟩ := List.mem_filter.1 (show m ∈ World.ofCategory .cpu messages from hm)
      obtain ⟨actions, keeps, rfl | rfl⟩ := lent m mem
      · cases category
      · exact Message.keeps_lending (Set.mem_univ _) second (.inr ⟨rfl, rfl⟩) fun a ha => keeps a ha _
    · cases hm
  exact World.separate_of_keeps keeps fun _ _ => lentBytes_apart

end StreamMachine
