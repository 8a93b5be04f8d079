import StreamMachine.Proofs.Lease

/-! How the instructions of the built-in kinds end. One whose operand does not fit is refused before it
has had any effect; all others have theirs once. -/
namespace StreamMachine

/-- The kind of operand that a callback comes with. -/
def AccessMode.kind : AccessMode → OperandKind
  | .write => .write
  | .read => .read

def AccessMode.operand : AccessMode → Handle → List Action → Operand
  | .write, handle, actions => .write handle actions
  | .read, handle, actions => .read handle actions

/-- What is wrong with the operand of a message to a built-in kind. -/
inductive Message.Refused (w : World) (message : Message) : Violation → Prop
  | missing (works : message.descriptor.behavior.Works) (none : message.operand = none) :
      Refused w message (.noOperand message.name)
  | callback {mode : AccessMode} {category : StreamCategory} {operand : Operand}
      (behavior : message.descriptor.behavior = .lending mode category)
      (found : message.operand = some operand) (other : operand.kind ≠ mode.kind) :
      Refused w message (.wrongOperand message.name mode.kind operand.kind)
  | reference {category : StreamCategory} {operand : Operand}
      (behavior : message.descriptor.behavior = .lazyReference category)
      (found : message.operand = some operand) (other : operand.kind ≠ .lazyReference) :
      Refused w message (.wrongOperand message.name .lazyReference operand.kind)
  | unpublished {category : StreamCategory} {handle : Handle} {name : String}
      (behavior : message.descriptor.behavior = .lazyReference category)
      (found : message.operand = some (.lazyReference handle name))
      (absent : w.store.published? name = none) :
      Refused w message (.unpublished message.name name)

/-- A message to a built-in kind with the operand that this asks for. -/
inductive Message.Fits (w : World) (message : Message) : Prop
  | callback {mode : AccessMode} {category : StreamCategory} {handle : Handle}
      {actions : List Action} (behavior : message.descriptor.behavior = .lending mode category)
      (found : message.operand = some (mode.operand handle actions))
  | reference {category : StreamCategory} {handle : Handle} {name : String} {id : StorageId}
      (behavior : message.descriptor.behavior = .lazyReference category)
      (found : message.operand = some (.lazyReference handle name))
      (there : w.store.published? name = some id)

section

variable {w : World} {message : Message} {v : Violation} {mode : AccessMode} {operand : Operand}
  {name : String}

theorem Operand.exists_of_kind (h : operand.kind = mode.kind) :
    ∃ handle actions, operand = mode.operand handle actions := by
  cases mode <;> cases operand <;> first | exact ⟨_, _, rfl⟩ | cases h

theorem Operand.expectCallback_operand (handle : Handle) (actions : List Action) :
    (mode.operand handle actions).expectCallback mode name = .ok (handle, actions) := by
  cases mode <;> rfl

theorem Operand.expectCallback_of_other (h : operand.kind ≠ mode.kind) :
    operand.expectCallback mode name = .error (.wrongOperand name mode.kind operand.kind) := by
  cases mode <;> cases operand <;> first | exact (h rfl).elim | rfl

theorem Operand.expectLazyReference_of_other (h : operand.kind ≠ .lazyReference) :
    operand.expectLazyReference name = .error (.wrongOperand name .lazyReference operand.kind) := by
  cases operand <;> first | exact (h rfl).elim | rfl

/-- There is nothing in between. -/
theorem Message.refused_or_fits (w : World) (works : message.descriptor.behavior.Works) :
    (∃ v, message.Refused w v) ∨ message.Fits w := by
  cases found : message.operand with
  | none => exact .inl ⟨_, .missing works found⟩
  | some operand =>
    obtain ⟨category, ⟨mode, behavior⟩ | behavior⟩ := works
    · by_cases kind : operand.kind = mode.kind
      · obtain ⟨handle, actions, rfl⟩ := Operand.exists_of_kind kind
        exact .inr (.callback behavior found)
      · exact .inl ⟨_, .callback behavior found kind⟩
    · cases operand with
      | lazyReference handle name =>
        cases there : w.store.published? name with
        | none => exact .inl ⟨_, .unpublished behavior found there⟩
        | some id => exact .inr (.reference behavior found there)
      | write | read | custom => exact .inl ⟨_, .reference behavior found (by simp [Operand.kind])⟩

/-- Diagnostics begin with the name of the instruction. -/
theorem Message.Refused.named (h : message.Refused w v) :
    ∃ rest, v.message = "instruction '" ++ message.name ++ "'" ++ rest := by
  have quoted (word tail rest : String) (cut : word = "'" ++ tail) :
      "instruction '" ++ message.name ++ word ++ rest =
        "instruction '" ++ message.name ++ "'" ++ (tail ++ rest) := by
    rw [cut, ← String.append_assoc, ← String.append_assoc]
  have expects (expected actual : OperandKind) : ∃ rest,
      (Violation.wrongOperand message.name expected actual).message =
        "instruction '" ++ message.name ++ "'" ++ rest := by
    have whole : (Violation.wrongOperand message.name expected actual).message =
        "instruction '" ++ message.name ++ "' expects a " ++ expected.display ++ " operand, got " ++
          actual.display := rfl
    rw [whole, quoted "' expects a " " expects a " _ rfl, String.append_assoc, String.append_assoc]
    exact ⟨_, rfl⟩
  cases h with
  | missing =>
    have whole : (Violation.noOperand message.name).message =
        "instruction '" ++ message.name ++ "' carries no operand" ++ "" := String.append_empty.symm
    exact ⟨_, whole.trans (quoted _ " carries no operand" "" rfl)⟩
  | callback | reference => exact expects _ _
  | @unpublished _ _ name =>
    have whole : (Violation.unpublished message.name name).message =
        "instruction '" ++ message.name ++ "' references lazy blob '" ++ name ++
          "' which no graph has published" := rfl
    rw [whole, quoted "' references lazy blob '" " references lazy blob '" _ rfl,
      String.append_assoc]
    exact ⟨_, rfl⟩

end

/-- A stretch on which an instruction of a built-in kind goes on without any effect. -/
inductive Thread.Passes (w : World) (floor : Nat) : Thread → List Pace → Thread → Prop
  | refl (t : Thread) : Passes w floor t [] t
  | step {t t' last : Thread} {seen : List Occurrence} {trace : List Pace}
      (above : floor < t.frames.length) (builtIn : t.BuiltIn)
      (taken : t.step? w 0 (fun _ => none) = some ⟨.nothing, t', [], seen⟩)
      (rest : Passes w floor t' trace last) :
      Passes w floor t (⟨t, ⟨.nothing, t', [], seen⟩⟩ :: trace) last

namespace Thread.Passes

variable {w : World} {floor : Nat} {t t' t'' : Thread} {trace trace' : List Pace}

theorem trans (h : t.Passes w floor trace t') (later : t'.Passes w floor trace' t'') :
    t.Passes w floor (trace ++ trace') t'' := by
  induction h with
  | refl => exact later
  | step above builtIn taken _ ih => exact .step above builtIn taken (ih later)

theorem quiet (h : t.Passes w floor trace t') :
    ∀ x ∈ trace, x.step.deed = .nothing ∧ ∀ depth, x.invoked? depth = none := by
  induction h with
  | refl => simp
  | step _ builtIn _ _ ih => exact List.forall_mem_cons.2 ⟨⟨rfl, builtIn.invoked?⟩, ih⟩

/-- Such a stretch is forced, in whatever call it stands, and leaves the world as it is. -/
theorem stretch {c : Call} {m : Machine} (h : t.Passes m.world c.outer.length trace t')
    (found : m.threads[c.place]? = some t) : ∃ m', c.Stretch m trace m' ∧ m'.world = m.world ∧
      m'.threads[c.place]? = some t' := by
  generalize world : m.world = w at h
  induction h generalizing m with
  | refl => exact ⟨m, .refl m, world, found⟩
  | @step t t' last seen trace above builtIn taken _ ih =>
    obtain ⟨frame, rest, frames, kind⟩ := builtIn
    have forced : t.Forced m.world ⟨.nothing, t', [], seen⟩ :=
      .of_builtIn frames kind (by rw [world]; exact taken)
    obtain ⟨m', stretch, same, found'⟩ :=
      ih (m := m.stepped c.place ⟨.nothing, t', [], seen⟩) (Machine.getElem?_stepped found _) world
    exact ⟨m', .step found above forced stretch, same, found'⟩

end Thread.Passes

/-- One thread comes to another by such a stretch. -/
def Thread.Leads (w : World) (floor : Nat) (t t' : Thread) : Prop :=
  ∃ trace, t.Passes w floor trace t'

namespace Thread.Leads

variable {w : World} {floor : Nat} {t t' t'' : Thread} {message : Message} {s : Nat}
  {outer : List Frame}

theorem refl (t : Thread) : t.Leads w floor t := ⟨[], .refl t⟩

theorem step {seen : List Occurrence} (above : floor < t.frames.length) (builtIn : t.BuiltIn)
    (taken : t.step? w 0 (fun _ => none) = some ⟨.nothing, t', [], seen⟩)
    (rest : t'.Leads w floor t'') : t.Leads w floor t'' := by
  obtain ⟨trace, passes⟩ := rest
  exact ⟨_, .step above builtIn taken passes⟩

theorem trans (h : t.Leads w floor t') (later : t'.Leads w floor t'') : t.Leads w floor t'' := by
  obtain ⟨trace, passes⟩ := h
  obtain ⟨trace', passes'⟩ := later
  exact ⟨_, passes.trans passes'⟩

/-- Built-in kinds have nothing to infer. -/
theorem to_compute (works : message.descriptor.behavior.Works)
    (frames : t.frames = .run ⟨message, s, .created⟩ [.infer, .compute] :: outer)
    (run : t.control = .run) :
    t.Leads w outer.length (t.goto (.run ⟨message, s, .inferred⟩ [.compute] :: outer)) := by
  have idle : message.descriptor.behavior.infer = [] := by
    obtain ⟨category, ⟨mode, behavior⟩ | behavior⟩ := works <;> rw [behavior] <;> rfl
  have start : t.step? w 0 (fun _ => none) = some ⟨.nothing,
      t.goto (.phase ⟨message, s, .created⟩ .infer [] ::
        .run ⟨message, s, .created⟩ [.infer, .compute] :: outer), [],
      [.began s .infer .created]⟩ := by
    simp only [Thread.step?, frames, run, Thread.stepFrame?, Thread.stepRun, Instruction.checkStatus,
      Instruction.behavior, Behavior.moves, idle]
    rfl
  refine .step (by simp [frames]) ⟨_, _, frames, works⟩ start ?_
  refine .step (by simp only [Thread.goto, List.length_cons]; omega) ⟨_, _, rfl, works⟩ rfl ?_
  exact .step (by simp [Thread.give]) ⟨_, _, rfl, works⟩ rfl (.refl _)

/-- The compute begins. -/
theorem to_phase (works : message.descriptor.behavior.Works)
    (frames : t.frames = .run ⟨message, s, .created⟩ [.infer, .compute] :: outer)
    (run : t.control = .run) : t.Leads w outer.length
      (t.goto (.phase ⟨message, s, .inferred⟩ .compute message.descriptor.behavior.compute ::
        .run ⟨message, s, .inferred⟩ [.compute] :: outer)) :=
  (to_compute works frames run).trans
    (.step (by simp [Thread.goto]) ⟨_, _, rfl, works⟩ rfl (.refl _))

/-- A panic in a phase is one of the instruction. -/
theorem of_raise {i : Instruction} {p : Phase} {move : Move} {panic : Panic}
    (works : i.behavior.Works) (frames : t.frames = .phase i p [move] :: .run i [p] :: outer)
    (run : t.control = .run) (raised : t.stepMove w i move (.phase i p [] :: .run i [p] :: outer) =
      t.raise (.phase i p [] :: .run i [p] :: outer) panic) :
    t.Leads w outer.length (t.fail outer panic) := by
  have start : t.step? w 0 (fun _ => none) =
      some (t.raise (.phase i p [] :: .run i [p] :: outer) panic) := by
    rw [← raised]
    simp only [Thread.step?, frames, run, Thread.stepFrame?]
  refine .step (by simp only [frames, List.length_cons]; omega) ⟨_, _, frames, works⟩ start ?_
  refine .step (by simp only [Thread.fail, List.length_cons]; omega) ⟨_, _, rfl, works⟩ rfl ?_
  exact .step (by simp [Thread.fail]) ⟨_, _, rfl, works⟩ rfl (.refl _)

/-- A phase whose moves are all made is the end of the instruction. -/
theorem to_end {i : Instruction} (works : i.behavior.Works)
    (frames : t.frames = .phase i .compute [] :: .run i [.compute] :: outer)
    (run : t.control = .run) : t.Leads w outer.length (t.give outer .ok) := by
  have start : t.step? w 0 (fun _ => none) = some ⟨.nothing,
      t.give (.run i [.compute] :: outer) .ok, [], [.returned i.stream .compute]⟩ := by
    simp only [Thread.step?, frames, run, Thread.stepFrame?]
  refine .step (by simp only [frames, List.length_cons]; omega) ⟨_, _, frames, works⟩ start ?_
  refine .step (by simp [Thread.give]) ⟨_, _, rfl, works⟩ rfl ?_
  exact .step (by simp [Thread.goto]) ⟨_, _, rfl, works⟩ rfl (.refl _)

/-- An instruction that is refused panics. -/
theorem of_refused {v : Violation} (refused : message.Refused w v)
    (frames : t.frames = .run ⟨message, s, .created⟩ [.infer, .compute] :: outer)
    (run : t.control = .run) : t.Leads w outer.length (t.fail outer (.violation v)) := by
  have fails {move : Move} (works : message.descriptor.behavior.Works)
      (compute : message.descriptor.behavior.compute = [move])
      (raised : ∀ (t : Thread) inner, t.stepMove w ⟨message, s, .inferred⟩ move inner =
        t.raise inner (.violation v)) : t.Leads w outer.length (t.fail outer (.violation v)) := by
    have phase := to_phase (w := w) works frames run
    rw [compute] at phase
    exact phase.trans (of_raise (i := ⟨message, s, .inferred⟩) works rfl rfl (raised _ _))
  have wrong {α : Type} {operand : Operand} (found : message.operand = some operand)
      (f : Operand → Except Violation α) :
      (⟨message, s, .inferred⟩ : Instruction).operand >>= f = f operand := by
    simp [Instruction.operand, found, bind, Except.bind]
  cases refused with
  | missing works missing =>
    have missing' {α : Type} (f : Operand → Except Violation α) :
        (⟨message, s, .inferred⟩ : Instruction).operand >>= f = .error (.noOperand message.name) := by
      simp [Instruction.operand, missing, bind, Except.bind, Instruction.name]
    obtain ⟨category, ⟨mode, behavior⟩ | behavior⟩ := id works
    · exact fails works (by rw [behavior]; rfl) fun t inner => by simp only [Thread.stepMove, missing']
    · exact fails works (by rw [behavior]; rfl) fun t inner => by simp only [Thread.stepMove, missing']
  | @callback mode category operand behavior found other =>
    refine fails ⟨category, .inl ⟨mode, behavior⟩⟩ (by rw [behavior]; rfl) fun t inner => ?_
    simp only [Thread.stepMove, wrong found, Operand.expectCallback_of_other other]
    rfl
  | @reference category operand behavior found other =>
    refine fails ⟨category, .inr behavior⟩ (by rw [behavior]; rfl) fun t inner => ?_
    simp only [Thread.stepMove, wrong found, Operand.expectLazyReference_of_other other]
    rfl
  | @unpublished category handle name behavior found absent =>
    refine fails ⟨category, .inr behavior⟩ (by rw [behavior]; rfl) fun t inner => ?_
    simp only [Thread.stepMove, wrong found, Operand.expectLazyReference, absent]
    rfl

end Thread.Leads

/-- The execution of a message that is refused. -/
structure Call.Refuses (c : Call) (m : Machine) (message : Message) (v : Violation) : Prop where
  named : ∃ rest, v.message = "instruction '" ++ message.name ++ "'" ++ rest
  /-- It panics, and there is no other way for it to go. -/
  panics : ∃ trace m' t, c.Stretch m trace m' ∧ m'.threads[c.place]? = some t ∧ t.frames = c.outer ∧
    t.control = .unwind (.violation v) ∧ ∀ own m'', c.Follows m own m'' → own <+: trace
  /-- At no time has it changed anything, or invoked a callback. -/
  untouched : ∀ own m', c.Follows m own m' →
    m'.world = m.world ∧ ∀ x ∈ own, ∀ depth, x.invoked? depth = none

/-- The execution of a message whose callback is to be lent a blob. -/
structure Call.Invokes (c : Call) (m : Machine) (i : Instruction) (a : Accessor)
    (actions : List Action) : Prop where
  /-- It comes to wait for the lock of the storage, and invokes the callback when that is free. -/
  comes : ∃ trace m' t, c.Stretch m trace m' ∧ m'.world = m.world ∧ m'.threads[c.place]? = some t ∧
    t.frames = .borrow a actions :: i.lender c.outer ∧ t.control = .run
  invokes : m.world.store.canAcquire a.mode a.storage = true → ∃ own m', c.Follows m own m' ∧
    invokedAt (c.outer.length + 2) own = [(a, actions)]
  /-- It never invokes it again, and once it is over it has done so. -/
  once : ∀ own m', c.Follows m own m' → invokedAt (c.outer.length + 2) own <+: [(a, actions)]
  ended : ∀ own m' t, c.Follows m own m' → m'.threads[c.place]? = some t → t.frames = c.outer →
    invokedAt (c.outer.length + 2) own = [(a, actions)]

/-- The execution of a message that links a handle. -/
structure Call.Links (c : Call) (m : Machine) (handle : Handle) (id : StorageId) : Prop where
  /-- It returns with the handle rebound, once and with nothing else done, and cannot go otherwise. -/
  rebinds : ∃ before pace after m' t, c.Stretch m (before ++ pace :: after) m' ∧
    pace.step.deed = .rebind handle id ∧ (∀ x ∈ before ++ after, x.step.deed = .nothing) ∧
    m'.world = m.world.after (.rebind handle id) ∧ m'.threads[c.place]? = some t ∧
    t.frames = c.outer ∧ t.control = .reply .ok ∧
    ∀ own m'', c.Follows m own m'' → own <+: before ++ pace :: after
  bound : m.world.store.binding? handle ≠ none →
    (m.world.after (.rebind handle id)).store.binding? handle = some id
  others : ∀ resource, resource ≠ .handle handle →
    (m.world.after (.rebind handle id)).view resource = m.world.view resource

section

variable {c : Call} {m : Machine} {message : Message} {s : Nat} {t : Thread} {w : World}

theorem Message.Refused.refuses {v : Violation} (refused : message.Refused m.world v)
    (found : m.threads[c.place]? = some t)
    (frames : t.frames = .run ⟨message, s, .created⟩ [.infer, .compute] :: c.outer)
    (run : t.control = .run) (awaited : c.Awaited m) : c.Refuses m message v := by
  obtain ⟨trace, passes⟩ := Thread.Leads.of_refused refused frames run
  obtain ⟨m', stretch, -, found'⟩ := passes.stretch found
  have covers {own : List Pace} {m'' : Machine} (later : c.Follows m own m'') :=
    stretch.covers awaited found' rfl (by simp [Thread.fail]) later
  refine ⟨refused.named, ⟨trace, m', _, stretch, found', rfl, rfl, fun own m'' later => ?_⟩,
    fun own m'' later => ?_⟩
  · obtain ⟨rest, rfl, -⟩ := covers later
    exact List.prefix_append own rest
  · obtain ⟨rest, rfl, taken, -⟩ := covers later
    have quiet (x : Pace) (mem : x ∈ own) := passes.quiet x (List.mem_append_left rest mem)
    exact ⟨taken.world_eq fun x mem => (quiet x mem).1, fun x mem => (quiet x mem).2⟩

theorem Call.links_of_published {category : StreamCategory} {handle : Handle} {name : String}
    {id : StorageId} (behavior : message.descriptor.behavior = .lazyReference category)
    (operand : message.operand = some (.lazyReference handle name))
    (there : m.world.store.published? name = some id) (found : m.threads[c.place]? = some t)
    (frames : t.frames = .run ⟨message, s, .created⟩ [.infer, .compute] :: c.outer)
    (run : t.control = .run) (awaited : c.Awaited m) : c.Links m handle id := by
  let i : Instruction := ⟨message, s, .inferred⟩
  have works : i.behavior.Works := ⟨category, .inr behavior⟩
  obtain ⟨before, passes⟩ := Thread.Leads.to_phase (w := m.world) works frames run
  obtain ⟨m₁, first, same, found₁⟩ := passes.stretch found
  let inner : List Frame := .phase i .compute [] :: .run i [.compute] :: c.outer
  let notice := t.notice (.rebinding category handle.name name)
  let x := t.goto (.phase i .compute [.bindPublished category] :: .run i [.compute] :: c.outer)
  have found₁ : m₁.threads[c.place]? = some x := by
    rw [found₁, behavior]
    rfl
  have linked : x.Forced m₁.world ⟨.rebind handle id, x.goto inner, [], [notice]⟩ := by
    refine .of_builtIn rfl works ?_
    have expected : i.operand >>= Operand.expectLazyReference i.name = .ok (handle, name) := by
      simp [i, Instruction.operand, operand, bind, Except.bind, Operand.expectLazyReference]
    rw [same]
    simp only [x, Thread.step?, Thread.goto, Thread.stepFrame?, Thread.stepMove, expected, there]
    rfl
  have after := Machine.getElem?_stepped found₁ ⟨.rebind handle id, x.goto inner, [], [notice]⟩
  obtain ⟨rest, passes'⟩ := Thread.Leads.to_end (w := (m₁.stepped c.place _).world) works
    (t := x.goto inner) rfl rfl
  obtain ⟨m₂, second, same', found₂⟩ := passes'.stretch after
  have above : c.outer.length < x.frames.length := by
    simp only [x, Thread.goto, List.length_cons]
    omega
  have stretch := first.trans (.step found₁ above linked second)
  refine ⟨⟨before, _, rest, m₂, _, stretch, rfl, fun y mem => ?_, ?_, found₂, rfl, rfl,
    fun own m'' later => ?_⟩, fun known => ?_, fun resource other => ?_⟩
  · exact (List.mem_append.1 mem).elim (fun mem => (passes.quiet y mem).1) fun mem =>
      (passes'.quiet y mem).1
  · rw [same', ← same]
    rfl
  · obtain ⟨left, whole, -⟩ := stretch.covers awaited found₂ rfl (by simp [Thread.give]) later
    exact whole ▸ List.prefix_append own left
  · obtain ⟨old, bound⟩ := Option.ne_none_iff_exists'.1 known
    have view := (m.world.view_rebind handle id (.handle handle)).trans (if_pos rfl)
    rw [bound] at view
    exact View.bound.inj view
  · exact (m.world.view_rebind handle id resource).trans (if_neg other)

theorem Call.invokes_of_bound {mode : AccessMode} {category : StreamCategory} {handle : Handle}
    {actions : List Action} {id : StorageId}
    (behavior : message.descriptor.behavior = .lending mode category)
    (operand : message.operand = some (mode.operand handle actions))
    (bound : m.world.store.binding? handle = some id) (found : m.threads[c.place]? = some t)
    (frames : t.frames = .run ⟨message, s, .created⟩ [.infer, .compute] :: c.outer)
    (run : t.control = .run) (awaited : c.Awaited m) (locked : m.Locked) (orderly : m.Orderly) :
    c.Invokes m ⟨message, s, .inferred⟩ ⟨id, mode, m.world.categoryAt s, m.world.deviceAt s⟩
      actions := by
  let i : Instruction := ⟨message, s, .inferred⟩
  let a : Accessor := ⟨id, mode, m.world.categoryAt s, m.world.deviceAt s⟩
  have works : i.behavior.Works := ⟨category, .inl ⟨mode, behavior⟩⟩
  have lent : i.lends? mode = some (handle, actions) := by
    refine Instruction.lends?_eq_some.2 ?_
    simp [i, Instruction.operand, operand, bind, Except.bind, Operand.expectCallback_operand]
  obtain ⟨before, passes⟩ := Thread.Leads.to_compute (w := m.world) works frames run
  obtain ⟨m₁, first, same, found₁⟩ := passes.stretch found
  have lends : i.Lends m₁.world mode a actions := by
    rw [same]
    exact Instruction.lends_of_binding lent bound
  have quiet : invokedAt (c.outer.length + 2) before = [] :=
    List.filterMap_eq_nil_iff.2 fun x mem => (passes.quiet x mem).2 _
  obtain ⟨seen, reaches⟩ := first.follows.reaches
  have lease {own : List Pace} {m' : Machine} (later : c.Follows m₁ own m') :=
    later.lease (first.follows.awaited awaited) (reaches.locked locked) (reaches.orderly orderly)
      found₁ rfl rfl behavior
  obtain ⟨rest, m₂, x, second, same', found₂, running, stack⟩ :=
    stretch_to_waiting found₁ rfl rfl rfl behavior lent (same ▸ bound)
  rw [same] at stack same'
  have stretch := first.trans second
  refine ⟨⟨_, m₂, x, stretch, same', found₂, stack, running⟩, fun free => ?_, fun own m' later => ?_,
    fun own m' u later found' back => ?_⟩
  · have goes : x.Goes m₂
        ⟨.acquire mode id, x.goto (.callback a actions :: i.lender c.outer), [], []⟩ := by
      refine .step ?_
      simp only [Thread.step?, stack, running, Thread.stepFrame?, same']
      rw [if_pos free]
    have above : c.outer.length < x.frames.length := by
      simp only [stack, Instruction.lender, List.length_cons]
      omega
    obtain ⟨y, found₃, opened⟩ := lease (second.follows.own x _ found₂ above goes)
    obtain rfl := Option.some.inj (found₃.symm.trans (Machine.getElem?_stepped found₂ _))
    have stack₃ : (x.goto (.callback a actions :: i.lender c.outer)).frames =
        [] ++ .callback a actions :: i.lender c.outer := rfl
    obtain ⟨others, -, lends', -, -, called⟩ := opened.of_callback stack₃ (by simp [Instruction.lender])
    obtain ⟨-, rfl⟩ := lends.unique lends'
    refine ⟨_, _, stretch.follows.own x _ found₂ above goes, ?_⟩
    rw [List.append_assoc, invokedAt_append, quiet, List.nil_append]
    exact called
  · obtain ⟨left, rfl, -⟩ | ⟨past, rfl, beyond⟩ := first.agrees awaited later
    · rw [invokedAt_append, List.append_eq_nil_iff] at quiet
      exact quiet.1 ▸ List.nil_prefix
    · obtain ⟨u, -, lease⟩ := lease beyond
      rw [invokedAt_append, quiet, List.nil_append]
      exact lease.invokedAt_prefix lends
  · obtain ⟨left, rfl, -, stretch⟩ | ⟨past, rfl, beyond⟩ := first.agrees awaited later
    · obtain rfl := stretch.of_back found' back
      obtain rfl := Option.some.inj (found'.symm.trans found₁)
      have length := congrArg List.length back
      simp [Thread.goto] at length
    · obtain ⟨y, found₃, lease⟩ := lease beyond
      obtain rfl := Option.some.inj (found'.symm.trans found₃)
      rw [invokedAt_append, quiet, List.nil_append]
      exact lease.invokedAt_of_back lends back

end

/-- What comes of the message that a drain takes off the queue of a stream. -/
structure Executed (m₀ m : Machine) (c : Call) (s : Nat) (message : Message) (queue : List Message) :
    Prop where
  /-- Nothing has changed but that queue, which has lost the message. -/
  taken : m.world = m₀.world.after (.pop s)
  queues : ∀ k, m.world.queueAt k = if k = s then queue else m₀.world.queueAt k
  others : ∀ resource, resource ≠ .stream s → m.world.view resource = m₀.world.view resource
  whole : (∃ v, message.Refused m₀.world v) ∨ message.Fits m₀.world
  refuses : ∀ v, message.Refused m₀.world v → c.Refuses m message v
  invokes : ∀ mode category handle actions id,
    message.descriptor.behavior = .lending mode category →
    message.operand = some (mode.operand handle actions) →
    m₀.world.store.binding? handle = some id → c.Invokes m ⟨message, s, .inferred⟩
      ⟨id, mode, m₀.world.categoryAt s, m₀.world.deviceAt s⟩ actions
  links : ∀ category handle name id, message.descriptor.behavior = .lazyReference category →
    message.operand = some (.lazyReference handle name) →
    m₀.world.store.published? name = some id → c.Links m handle id

theorem Message.Refused.of_store {w w' : World} {message : Message} {v : Violation}
    (h : message.Refused w v) (same : w'.store = w.store) : message.Refused w' v := by
  cases h with
  | missing works missing => exact .missing works missing
  | callback behavior found other => exact .callback behavior found other
  | reference behavior found other => exact .reference behavior found other
  | unpublished behavior found absent => exact .unpublished behavior found (same ▸ absent)

/-- A machine at any moment from its creation on at which a drain is about to take a message to a
built-in kind off its queue. -/
theorem executed_of_taken {config : MachineConfig} {registry : Registry} {w : World}
    (created : World.create config registry = .ok w) {m : Machine} {past : List Occurrence}
    (earlier : Machine.Reaches ⟨w, []⟩ past m) {place s e : Nat} {t : Thread} {outer : List Frame}
    (found : m.threads[place]? = some t) (frames : t.frames = .drain s .take e :: outer)
    (run : t.control = .run) {message : Message} {queue : List Message}
    (first : m.world.queueAt s = message :: queue) (works : message.descriptor.behavior.Works) :
    ∃ r, (∀ r', t.Goes m r' ↔ r' = r) ∧ Executed m (m.stepped place r)
      ⟨place, .drain s .execute e :: outer, m.threads.length⟩ s message queue := by
  let inner : List Frame :=
    .run ⟨message, s, .created⟩ [.infer, .compute] :: .drain s .execute e :: outer
  let r : Step := ⟨.pop s, (t.enterSpan ⟨message.name, m.world.categoryAt s⟩).goto inner, [],
    [.started s message]⟩
  have taken : t.stepFrame? m.world m.threads.length m.outcome? (.drain s .take e) outer = some r := by
    have queued : (m.world.streams[s]?).elim [] (·.queue) = message :: queue := first
    simp only [Thread.stepFrame?, Thread.stepDrain, queued]
    rfl
  have goes : t.Goes m r := .step (by simpa only [Thread.step?, frames, run] using taken)
  have found₁ := Machine.getElem?_stepped found r
  have reaches := earlier.move (Machine.moves_of_goes found goes)
  have locked := reaches.locked (.init created)
  have orderly := reaches.orderly (.init created)
  have awaited : Call.Awaited ⟨place, .drain s .execute e :: outer, m.threads.length⟩
      (m.stepped place r) := .init found₁ (by simp [Machine.stepped, r])
  refine ⟨r, fun r' => ⟨fun goes' => ?_, fun same => same ▸ goes⟩, rfl, fun k => ?_,
    fun resource other => ?_, message.refused_or_fits m.world works, fun v refused => ?_, ?_, ?_⟩
  · exact Option.some.inj ((goes'.of_frame frames run (by simp)).symm.trans taken)
  · refine (m.world.queueAt_pop s k).trans ?_
    by_cases same : k = s
    · rw [if_pos same.symm, if_pos same, same, first, List.tail_cons]
    · rw [if_neg (Ne.symm same), if_neg same]
  · exact World.view_after_of_notMem other
  · have refused : message.Refused (m.stepped place r).world v := refused.of_store rfl
    exact refused.refuses found₁ rfl rfl awaited
  · intro mode category handle actions id behavior operand bound
    have category' : (m.stepped place r).world.categoryAt s = m.world.categoryAt s :=
      World.categoryAt_after ..
    have device : (m.stepped place r).world.deviceAt s = m.world.deviceAt s := World.deviceAt_after ..
    rw [← category', ← device]
    exact Call.invokes_of_bound behavior operand bound found₁ rfl rfl awaited locked orderly
  · intro category handle name id behavior operand there
    exact Call.links_of_published behavior operand there found₁ rfl rfl awaited

/-- The first names a blob that nobody has published, the second carries what no callback comes with. -/
def unlinkable : List Message :=
  [⟨⟨"link", 0, .cpu, .lazyReference .cpu⟩, some (.lazyReference ⟨"a", 0⟩ "late")⟩,
   ⟨⟨"write", 1, .cpu, .lending .write .cpu⟩, some (.custom (.word 7))⟩]

/-- A drain of the stream is about to take the first of them. -/
def unlinkableTaken : Machine :=
  (Machine.run 2 ⟨(idlePair.after (.push 1 unlinkable[0])).after (.push 1 unlinkable[1]),
    [.ofCommand (.runPending .cpu)]⟩).1

theorem executed_of_unlinkable : ∃ past r,
    World.create {} .empty = .ok idlePair ∧ Machine.Reaches ⟨idlePair, []⟩ past unlinkableTaken ∧
    unlinkableTaken.world.queueAt 1 = unlinkable ∧
    Executed unlinkableTaken (unlinkableTaken.stepped 0 r) ⟨0, [.drain 1 .execute 0], 1⟩ 1
      unlinkable[0] [unlinkable[1]] ∧
    Call.Refuses ⟨0, [.drain 1 .execute 0], 1⟩ (unlinkableTaken.stepped 0 r) unlinkable[0]
      (.unpublished "link" "late") := by
  have created : World.create {} .empty = .ok idlePair := rfl
  have nothing : Machine.Reaches ⟨idlePair, []⟩ [] ⟨idlePair, []⟩ := .refl
  have earlier : Machine.Reaches ⟨idlePair, []⟩ _ unlinkableTaken :=
    (((nothing.move (.offer 1 unlinkable[0] (by decide) rfl)).move
      (.offer 1 unlinkable[1] (by decide) rfl)).move (.call (.runPending .cpu))).goOn 2
  obtain ⟨t, found, frames, run⟩ : ∃ t, unlinkableTaken.threads[0]? = some t ∧
      t.frames = [.drain 1 .take 0] ∧ t.control = .run := ⟨_, rfl, rfl, rfl⟩
  have works : unlinkable[0].descriptor.behavior.Works := ⟨.cpu, .inr rfl⟩
  have first : unlinkableTaken.world.queueAt 1 = unlinkable[0] :: [unlinkable[1]] := rfl
  obtain ⟨r, -, executed⟩ := executed_of_taken created earlier found frames run first works
  exact ⟨_, r, created, earlier, rfl, executed, executed.refuses _ (.unpublished rfl rfl rfl)⟩

end StreamMachine
