import StreamMachine.Proofs.BreadthFirst

/-! Instructions that only submit further work to their own stream and call for it. The calls find
the guard taken, so such an instruction comes to its end without having run another one, and a queue
of their messages holds the roots of a forest. -/
namespace StreamMachine

open Relation (ReflTransGen)

/-- Commands that have messages put on a stream, or call for it; with the messages, in order. -/
inductive Command.Sows (w : World) (s : Nat) : Command → List Message → Prop
  | enqueue (category : StreamCategory) (name : String) (descriptor : Descriptor)
      (known : w.streamOf? category = some s) (found : w.registry.lookup name = .ok descriptor)
      (routed : descriptor.category = w.categoryAt s) :
      Sows w s (.enqueue category name none) [⟨descriptor, none⟩]
  | receive (name : String) (descriptor : Descriptor)
      (found : w.registry.lookup name = .ok descriptor)
      (known : w.streamOf? descriptor.category = some s) :
      Sows w s (.receiveMessage name none) [⟨descriptor, none⟩]
  | runPending (category : StreamCategory) (known : w.streamOf? category = some s) :
      Sows w s (.runPending category) []

/-- Moves of an instruction of the stream that do no more. -/
inductive Move.Sows (w : World) (s : Nat) : Move → List Message → Prop
  | report (what : String) : Sows w s (.report what .nameAndStatus) []
  | drainOwn : Sows w s .drainOwn []
  | issue {command : Command} {messages : List Message} (sows : command.Sows w s messages) :
      Sows w s (.issue command) messages

/-- A forest that grows out of what the moves of its messages submit. -/
inductive Work.Sprouts (w : World) (s : Nat) : Work → Prop
  | submit (message : Message) (next : List Work) (infer compute : List (List Message))
      (inferring : List.Forall₂ (Move.Sows w s) message.descriptor.behavior.infer infer)
      (computing : List.Forall₂ (Move.Sows w s) message.descriptor.behavior.compute compute)
      (all : next.map Work.message = infer.flatten ++ compute.flatten)
      (later : ∀ x ∈ next, Sprouts w s x) : Sprouts w s (.submit message next)

theorem Work.Sprouts.of_mem_nodes {w : World} {s : Nat} {forest : List Work} {node : Work}
    (h : ∀ x ∈ forest, x.Sprouts w s) (mem : node ∈ Work.nodes forest) : node.Sprouts w s := by
  induction forest using Work.breadthFirst.induct with
  | case1 => simp [Work.nodes] at mem
  | case2 x rest ih =>
    rw [(Work.nodes_perm (x :: rest)).mem_iff] at mem
    obtain here | below := List.mem_append.1 mem
    · exact h node here
    · refine ih (fun y hy => ?_) below
      obtain ⟨z, hz, hy⟩ := List.mem_flatMap.1 hy
      obtain ⟨message, next, infer, compute, inferring, computing, all, later⟩ := h z hz
      exact later y hy

namespace Machine.Reaches

variable {m₀ m : Machine} {seen : List Occurrence}

theorem registry (run : m₀.Reaches seen m) : m.world.registry = m₀.world.registry := by
  induction run with
  | refl => rfl
  | move _ last ih =>
    obtain ⟨d, world⟩ := last.world
    rw [world, World.registry_after, ih]

end Machine.Reaches

namespace Thread

variable {w : World} {t : Thread} {s fresh : Nat} {outcomes : Nat → Option (Except Panic Reply)}
  {below : List Frame}

theorem leads_submit (message : Message) : (t.submit w below (.accepted s message)).Leads s below
    (.reply .ok) [] [message] :=
  ⟨rfl, rfl, by simp [submit, startedOn, Occurrence.startedOn?, notice],
    by simp [submit, acceptedOn, Occurrence.acceptedOn?, notice]⟩

theorem message_none {name : String} {descriptor : Descriptor}
    (found : w.registry.lookup name = .ok descriptor) :
    w.message name none = .ok ⟨descriptor, none⟩ := by
  rw [World.message, found]
  rfl

theorem step?_enqueue {category : StreamCategory} {name : String} {descriptor : Descriptor}
    (frames : t.frames = .command (.enqueue category name none) :: below) (run : t.control = .run)
    (known : w.streamOf? category = some s) (found : w.registry.lookup name = .ok descriptor)
    (routed : descriptor.category = w.categoryAt s) : t.step? w fresh outcomes =
      some (t.submit w below (.accepted s ⟨descriptor, none⟩)) := by
  have accepted : w.enqueue s ⟨descriptor, none⟩ = .accepted s ⟨descriptor, none⟩ :=
    World.enqueue_eq_accepted routed
  simp [step?, frames, run, stepFrame?, stepCommand?, message_none found, known, accepted]

theorem step?_receive {name : String} {descriptor : Descriptor}
    (frames : t.frames = .command (.receiveMessage name none) :: below) (run : t.control = .run)
    (found : w.registry.lookup name = .ok descriptor)
    (known : w.streamOf? descriptor.category = some s) : t.step? w fresh outcomes =
      some (t.submit w below (.accepted s ⟨descriptor, none⟩)) := by
  obtain ⟨stream, there, same⟩ := World.streamOf?_eq_some_iff known
  have accepted : w.receiveMessage ⟨descriptor, none⟩ = .accepted s ⟨descriptor, none⟩ := by
    rw [World.receiveMessage, known]
    exact World.enqueue_eq_accepted (by rw [World.categoryAt_of_getElem? there, same])
  simp [step?, frames, run, stepFrame?, stepCommand?, message_none found, accepted]

end Thread

namespace Call.At

variable {c : Call} {s e : Nat} {m₀ : Machine} {x : Journey} {past : List Occurrence}
  {goal : Journey → Prop} {below frames : List Frame} {control : Control} {i : Instruction}
  {p : Phase} {moves : List Move} {started accepted more : List Message}

/-- A thread whose stack has an instruction of a stream in it has taken the guard. -/
theorem held (h : c.At s m₀ x frames control started accepted) (sound : m₀.Sound past)
    (executes : .drain s .execute e ∈ frames) : x.machine.world.executingAt s = true := by
  by_contra free
  obtain ⟨t, found, stack, -⟩ := h.thread
  have guarded := (sound.after h.reached.runs.reaches).guarded
  have none := (guarded.free_iff s).1 (by simpa using free) t (List.mem_of_getElem? found)
    (.drain s .execute e) (by rwa [stack])
  simp [Frame.holds] at none

/-- A phase goes on once what it has asked for is done. -/
theorem resumes {reply : Reply}
    (h : c.At s m₀ x (.phase i p moves :: below) (.reply reply) started accepted)
    (begins : c.Begins s m₀) (under : c.outer.length ≤ below.length)
    (onward : ∀ y, c.At s m₀ y (.phase i p moves :: below) .run started accepted →
      Inevitable c.Next goal y) : Inevitable c.Next goal x := by
  refine h.silently begins under trivial (fun t stack control =>
    ⟨⟨.nothing, t.goto (.phase i p moves :: below), [], []⟩, ?_, rfl, rfl, rfl, rfl⟩) onward
  simp [Thread.step?, stack, control, Thread.stepReply]

/-- A call for a stream in the middle of one of its instructions returns 0. -/
theorem refused (h : c.At s m₀ x (.drain s .enter 0 :: below) .run started accepted)
    (begins : c.Begins s m₀) (sound : m₀.Sound past) (under : c.outer.length ≤ below.length)
    (executes : .drain s .execute e ∈ below)
    (onward : ∀ y, c.At s m₀ y below (.reply (.count 0)) started accepted →
      Inevitable c.Next goal y) : Inevitable c.Next goal x := by
  have held := h.held sound (List.mem_cons_of_mem _ executes)
  exact h.silently begins under trivial (fun t stack run =>
    ⟨_, Thread.step?_drain stack run, Thread.leads_busy held⟩) onward

theorem command {command : Command}
    (h : c.At s m₀ x (.command command :: .phase i p moves :: below) .run started accepted)
    (sows : command.Sows m₀.world s more) (begins : c.Begins s m₀) (sound : m₀.Sound past)
    (under : c.outer.length ≤ below.length) (executes : .drain s .execute e ∈ below)
    (onward : ∀ y, c.At s m₀ y (.phase i p moves :: below) .run started (accepted ++ more) →
      Inevitable c.Next goal y) : Inevitable c.Next goal x := by
  have run := h.reached.runs.reaches
  have higher : c.outer.length ≤ (Frame.phase i p moves :: below).length := under.trans (Nat.le_succ _)
  have submitted {y : Journey} (h : c.At s m₀ y (.phase i p moves :: below) (.reply .ok)
      (started ++ []) (accepted ++ more)) : Inevitable c.Next goal y := by
    rw [List.append_nil] at h
    exact h.resumes begins under onward
  cases sows with
  | runPending category known =>
    rw [← run.streamOf? category] at known
    rw [List.append_nil] at onward
    refine h.silently begins higher trivial (fun t stack control =>
      ⟨⟨.nothing, t.goto (.drain s .enter 0 :: .phase i p moves :: below), [], []⟩, ?_, rfl, rfl, rfl,
        rfl⟩) fun y h => ?_
    · simp [Thread.step?, stack, control, Thread.stepFrame?, Thread.stepCommand?, known]
    exact h.refused begins sound higher (List.mem_cons_of_mem _ executes) fun z h =>
      h.resumes begins under onward
  | enqueue category name descriptor known found routed =>
    rw [← run.streamOf? category] at known
    rw [← run.registry] at found
    rw [← run.categoryAt] at routed
    exact h.on begins higher trivial (fun t stack control =>
      ⟨_, Thread.step?_enqueue stack control known found routed, Thread.leads_submit _⟩)
      fun y h => submitted h
  | receive name descriptor found known =>
    rw [← run.registry] at found
    rw [← run.streamOf? descriptor.category] at known
    exact h.on begins higher trivial (fun t stack control =>
      ⟨_, Thread.step?_receive stack control found known, Thread.leads_submit _⟩)
      fun y h => submitted h

theorem move {move : Move}
    (h : c.At s m₀ x (.phase i p (move :: moves) :: below) .run started accepted)
    (sows : move.Sows m₀.world s more) (own : i.stream = s) (begins : c.Begins s m₀)
    (sound : m₀.Sound past) (under : c.outer.length ≤ below.length)
    (executes : .drain s .execute e ∈ below)
    (onward : ∀ y, c.At s m₀ y (.phase i p moves :: below) .run started (accepted ++ more) →
      Inevitable c.Next goal y) : Inevitable c.Next goal x := by
  have higher : c.outer.length ≤ (Frame.phase i p moves :: below).length := under.trans (Nat.le_succ _)
  have moves' {t : Thread} (stack : t.frames = .phase i p (move :: moves) :: below)
      (run : t.control = .run) : t.step? x.machine.world x.machine.threads.length x.machine.outcome? =
        some (t.stepMove x.machine.world i move (.phase i p moves :: below)) := by
    simp [Thread.step?, stack, run, Thread.stepFrame?]
  cases sows with
  | report what =>
    rw [List.append_nil] at onward
    exact h.silently begins under trivial (fun t stack run => ⟨_, moves' stack run, rfl, rfl,
      by simp [Thread.stepMove, Query.answer, startedOn, Occurrence.startedOn?, pure, Except.pure],
      by simp [Thread.stepMove, Query.answer, acceptedOn, Occurrence.acceptedOn?, pure, Except.pure]⟩)
      onward
  | issue sows =>
    exact h.silently begins under trivial
      (fun t stack run => ⟨_, moves' stack run, rfl, rfl, rfl, rfl⟩)
      fun y h => h.command sows begins sound under executes onward
  | drainOwn =>
    subst own
    rw [List.append_nil] at onward
    refine h.silently begins under trivial
      (fun t stack run => ⟨_, moves' stack run, rfl, rfl, rfl, rfl⟩) fun y h => ?_
    refine h.refused begins sound (higher.trans (Nat.le_succ _))
      (List.mem_cons_of_mem _ (List.mem_cons_of_mem _ executes)) fun z h => ?_
    refine h.silently begins higher trivial (fun t stack control =>
      ⟨t.stepReply z.machine.world (.count 0) (.logDrain i.stream) (.phase i p moves :: below), ?_,
        rfl, rfl, ?_, ?_⟩) onward
    · simp [Thread.step?, stack, control]
    · simp [Thread.stepReply, startedOn, Occurrence.startedOn?]
    · simp [Thread.stepReply, acceptedOn, Occurrence.acceptedOn?]

theorem performs {parts : List (List Message)} (sows : List.Forall₂ (Move.Sows m₀.world s) moves parts)
    (h : c.At s m₀ x (.phase i p moves :: below) .run started accepted) (own : i.stream = s)
    (begins : c.Begins s m₀) (sound : m₀.Sound past) (under : c.outer.length ≤ below.length)
    (executes : .drain s .execute e ∈ below)
    (onward : ∀ y, c.At s m₀ y (.phase i p [] :: below) .run started (accepted ++ parts.flatten) →
      Inevitable c.Next goal y) : Inevitable c.Next goal x := by
  induction sows generalizing x accepted with
  | nil => exact onward x (by simpa using h)
  | cons first _ ih =>
    refine h.move first own begins sound under executes fun y h => ih h fun z h => onward z ?_
    simpa using h

/-- An instruction goes through the next of its phases. -/
theorem passes {phases : List Phase} {parts : List (List Message)}
    (h : c.At s m₀ x (.run i (p :: phases) :: .drain s .execute e :: c.outer) .run started accepted)
    (own : i.stream = s) (ready : i.status = p.before)
    (sows : List.Forall₂ (Move.Sows m₀.world s) (i.behavior.moves p) parts)
    (begins : c.Begins s m₀) (sound : m₀.Sound past)
    (onward : ∀ y, c.At s m₀ y (.run (i.advance p) phases :: .drain s .execute e :: c.outer) .run
      started (accepted ++ parts.flatten) → Inevitable c.Next goal y) : Inevitable c.Next goal x := by
  have check : i.checkStatus p = .ok () := if_pos ready
  refine h.silently begins (Nat.le_succ _) trivial (fun t stack run =>
    ⟨⟨.nothing, t.goto (.phase i p (i.behavior.moves p) :: .run i (p :: phases) ::
      .drain s .execute e :: c.outer), [], [.began i.stream p i.status]⟩, ?_, rfl, rfl, ?_, ?_⟩)
    fun y h => ?_
  · simp [Thread.step?, stack, run, Thread.stepFrame?, Thread.stepRun, check]
  · simp [startedOn, Occurrence.startedOn?]
  · simp [acceptedOn, Occurrence.acceptedOn?]
  refine performs sows h own begins sound (by simp; omega)
    (List.mem_cons_of_mem _ List.mem_cons_self) fun z h => ?_
  refine h.silently begins (by simp; omega) trivial (fun t stack run =>
    ⟨⟨.nothing, t.give (.run i (p :: phases) :: .drain s .execute e :: c.outer) .ok, [],
      [.returned i.stream p]⟩, ?_, rfl, rfl, ?_, ?_⟩) fun u h => ?_
  · simp [Thread.step?, stack, run, Thread.stepFrame?]
  · simp [startedOn, Occurrence.startedOn?]
  · simp [acceptedOn, Occurrence.acceptedOn?]
  refine h.silently begins (Nat.le_succ _) trivial (fun t stack control =>
    ⟨⟨.nothing, t.goto (.run (i.advance p) phases :: .drain s .execute e :: c.outer), [], []⟩, ?_,
      rfl, rfl, rfl, rfl⟩) onward
  simp [Thread.step?, stack, control, Thread.stepReply]

/-- An instruction that only sows returns, and what its message submits is in the queue. -/
theorem sown {node : Work}
    (h : c.At s m₀ x (.run ⟨node.message, s, .created⟩ [.infer, .compute] ::
      .drain s .execute e :: c.outer) .run started accepted)
    (sprouts : node.Sprouts m₀.world s) (begins : c.Begins s m₀) (sound : m₀.Sound past) :
    Inevitable c.Next (fun y => c.Finishes s e y.machine ∧
      acceptedOn s y.seen = accepted ++ node.next.map Work.message) x := by
  obtain ⟨message, next, infer, compute, inferring, computing, all, -⟩ := sprouts
  refine h.passes rfl rfl inferring begins sound fun y h => ?_
  refine h.passes rfl rfl computing begins sound fun z h => ?_
  refine h.silently begins (Nat.le_succ _) trivial (fun t stack run =>
    ⟨⟨.nothing, t.give (.drain s .execute e :: c.outer) .ok, [], []⟩, ?_, rfl, rfl, rfl, rfl⟩)
    fun u h => ?_
  · simp [Thread.step?, stack, run, Thread.stepFrame?, Thread.stepRun]
  obtain ⟨t, found, frames, control⟩ := h.thread
  refine .now ⟨⟨t, .ok, found, control, frames⟩, ?_⟩
  rw [h.accepted, List.append_assoc, ← all]
  rfl

end Call.At

/-- A queue of such messages grows into the forest that their moves make. -/
theorem Call.grows_of_sprouts {c : Call} {s : Nat} {m₀ : Machine} {past : List Occurrence}
    {forest : List Work} (begins : c.Begins s m₀) (sound : m₀.Sound past)
    (roots : m₀.world.queueAt s = forest.map Work.message)
    (sprouts : ∀ node ∈ forest, node.Sprouts m₀.world s) : c.Grows s forest m₀ where
  roots := roots
  submits x before node after reached order shown starts := by
    have turn : node ∈ Work.breadthFirst forest := by simp [order]
    have sprout := Work.Sprouts.of_mem_nodes sprouts ((Work.breadthFirst_perm forest).mem_iff.1 turn)
    obtain ⟨t, found, run, frames⟩ := starts
    have h : c.At s m₀ x _ _ _ _ := ⟨reached, ⟨t, found, frames, run⟩, shown, rfl⟩
    exact h.sown sprout begins sound

/-- A machine at any moment from its creation on, and a call for a stream whose guard is free, in
whatever place on whatever thread. -/
theorem harvest_of_grows {config : MachineConfig} {registry : Registry} {w : World}
    (created : World.create config registry = .ok w) {m₀ : Machine} {past : List Occurrence}
    (earlier : Machine.Reaches ⟨w, []⟩ past m₀) {c : Call} {s : Nat} (begins : c.Begins s m₀)
    (free : m₀.world.executingAt s = false) {forest : List Work} (grows : c.Grows s forest m₀) :
    (Work.breadthFirst forest).Perm (Work.nodes forest) ∧
      Inevitable c.Next (c.Harvest s forest m₀) { machine := m₀ } := by
  have sound : m₀.Sound past := by simpa using (Machine.Sound.init created).after earlier
  exact ⟨Work.breadthFirst_perm forest, grows.harvest begins sound free⟩

def leafKind : Descriptor := ⟨"leaf", 0, .host, .fixed .host [] []⟩

def twigKind : Descriptor :=
  ⟨"twig", 1, .host, .fixed .host [] [.issue (.receiveMessage "leaf" none)]⟩

/-- Calls for its stream twice, in between what it submits and behind. -/
def seedKind : Descriptor :=
  ⟨"seed", 2, .host, .fixed .host
    [.issue (.enqueue .host "leaf" none), .drainOwn, .issue (.enqueue .host "twig" none)]
    [.issue (.runPending .host)]⟩

def leaf : Work := .submit ⟨leafKind, none⟩ []

def twig : Work := .submit ⟨twigKind, none⟩ [leaf]

def seed : Work := .submit ⟨seedKind, none⟩ [leaf, twig]

def plot : World :=
  { idlePair with registry := ((Registry.empty.insert leafKind).insert twigKind).insert seedKind }

/-- A seed and a leaf are in the queue, and a thread calls for the stream. -/
def sownPlot : Machine :=
  ⟨(plot.after (.push 0 seed.message)).after (.push 0 leaf.message),
    [.ofCommand (.runPending .host)]⟩

theorem leaf_sprouts : leaf.Sprouts sownPlot.world 0 :=
  .submit _ [] [] [] .nil .nil rfl (by simp)

theorem twig_sprouts : twig.Sprouts sownPlot.world 0 := by
  refine .submit _ [leaf] [] [[leaf.message]] .nil (.cons (.issue ?_) .nil) rfl ?_
  · exact .receive "leaf" leafKind rfl rfl
  · simpa using leaf_sprouts

theorem seed_sprouts : seed.Sprouts sownPlot.world 0 := by
  refine .submit _ [leaf, twig] [[leaf.message], [], [twig.message]] [[]]
    (.cons (.issue ?_) (.cons .drainOwn (.cons (.issue ?_) .nil)))
    (.cons (.issue (.runPending .host rfl)) .nil) rfl ?_
  · exact .enqueue .host "leaf" leafKind rfl rfl rfl
  · exact .enqueue .host "twig" twigKind rfl rfl rfl
  · simpa using ⟨leaf_sprouts, twig_sprouts⟩

/-- Five instructions run, level by level. -/
theorem harvest_of_sownPlot : ∃ past,
    World.create {} plot.registry = .ok plot ∧ Machine.Reaches ⟨plot, []⟩ past sownPlot ∧
    Call.Begins ⟨0, [], 1⟩ 0 sownPlot ∧ sownPlot.world.executingAt 0 = false ∧
    Call.Grows ⟨0, [], 1⟩ 0 [seed, leaf] sownPlot ∧
    (Work.breadthFirst [seed, leaf]).map (·.message.name) = ["seed", "leaf", "leaf", "twig", "leaf"] ∧
    (Work.breadthFirst [seed, leaf]).Perm (Work.nodes [seed, leaf]) ∧
    Inevitable (Call.Next ⟨0, [], 1⟩) (Call.Harvest ⟨0, [], 1⟩ 0 [seed, leaf] sownPlot)
      { machine := sownPlot } := by
  have created : World.create {} plot.registry = .ok plot := rfl
  have earlier : Machine.Reaches ⟨plot, []⟩ _ sownPlot :=
    ((Machine.Reaches.refl.move (.offer 0 seed.message (by decide) rfl)).move
      (.offer 0 leaf.message (by decide) rfl)).move (.call (.runPending .host))
  have sound := (Machine.Sound.init created).after earlier
  have begins : Call.Begins ⟨0, [], 1⟩ 0 sownPlot :=
    ⟨⟨_, rfl, rfl, .inr ⟨.host, rfl, rfl⟩⟩, rfl⟩
  have grows : Call.Grows ⟨0, [], 1⟩ 0 [seed, leaf] sownPlot :=
    Call.grows_of_sprouts begins sound rfl (by simpa using ⟨seed_sprouts, leaf_sprouts⟩)
  refine ⟨_, created, earlier, begins, rfl, grows, ?_,
    harvest_of_grows created earlier begins rfl grows⟩
  simp [Work.breadthFirst, seed, leaf, twig, Work.next, Work.message, Message.name, seedKind, leafKind,
    twigKind]

end StreamMachine
