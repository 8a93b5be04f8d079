import StreamMachine.Proofs.Accounts
import StreamMachine.Proofs.Confined

/-! The store refines the reference. One thread after another works on the store in the plain way, and
what has come of it is what its acts make of an empty reference: handles are looked up when an
instruction lends, names when it links, and only a callback that writes changes a blob. -/
namespace StreamMachine

/-- The blob that is seen through a handle. -/
def World.content? (w : World) (handle : Handle) : Option Blob :=
  w.store.binding? handle >>= w.store.blob?

namespace Machine

/-- Runs of confined threads, one at a time, with the acts that they come to and the callback that is
under way. A new thread enters, or a message is handed in, when all others have ended; host code may
decide in a callback what it does next. -/
inductive Plays (w₀ : World) : List Act → Option Loan → Machine → Prop
  | start : Plays w₀ [] none ⟨w₀, []⟩
  | call {acts : List Act} {loan : Option Loan} {m : Machine} (run : Plays w₀ acts loan m)
      (c : Command) (ended : m.Ended) (confined : c.Confined m.world.registry) :
      Plays w₀ acts loan ⟨m.world, m.threads ++ [.ofCommand c]⟩
  | offer {acts : List Act} {loan : Option Loan} {m : Machine} (run : Plays w₀ acts loan m) (s : Nat)
      (message : Message) (ended : m.Ended) (known : s < m.world.streams.length)
      (accepted : m.world.enqueue s message = .accepted s message) (confined : message.Confined) :
      Plays w₀ acts loan ⟨m.world.after (.push s message), m.threads⟩
  | go {acts : List Act} {loan : Option Loan} {m : Machine} (run : Plays w₀ acts loan m) (i : Nat)
      (t : Thread) (s : Step) (found : m.threads[i]? = some t)
      (step : t.step? m.world m.threads.length m.outcome? = some s) :
      Plays w₀ (acts ++ (t.effect m.world s.deed loan).1) (t.effect m.world s.deed loan).2
        (m.stepped i s)
  | revise {acts : List Act} {l : Loan} {m : Machine} (run : Plays w₀ acts (some l) m) (i : Nat)
      (t : Thread) (a : Accessor) (taken old new : List Action) (outer : List Frame)
      (found : m.threads[i]? = some t) (frames : t.frames = .callback a old :: outer)
      (plan : l.callback = taken ++ old) (confined : ∀ x ∈ new, x.Confined) :
      Plays w₀ acts (some { l with callback := taken ++ new })
        ⟨m.world, m.threads.set i { t with frames := .callback a new :: outer }⟩

/-- A machine whose store is that of the reference, and whose last thread is the only one that has not
ended. -/
structure Follows (m : Machine) (r : Reference) (loan : Option Loan) : Prop where
  holds : r.Holds loan m.world
  queued : ∀ i, ∀ message ∈ m.world.queueAt i, message.Confined
  live : ∀ i t, m.threads[i]? = some t → t.frames ≠ [] →
    i + 1 = m.threads.length ∧ Stands m.world.registry r loan t.control t.frames
  ended : m.Ended → loan = none

end Machine

variable {r : Reference} {loan : Option Loan}

theorem Stands.eq_none {registry : Registry} {control : Control}
    (h : Stands registry r loan control []) : loan = none := by
  generalize frames : [] = stack at h
  cases h with
  | outside => rfl
  | lending => rfl
  | @within _ _ _ _ _ inner => cases inner <;> cases frames
  | acting => cases frames

theorem Stands.bound {registry : Registry} {l : Loan} {control : Control} {frames : List Frame}
    (h : Stands registry r (some l) control frames) : ∃ id, r.env l.handle = some id := by
  cases h with
  | within opened | acting opened => exact ⟨_, opened.bound⟩

/-- An action under way is one of the callback that the blob is lent to. -/
theorem Stands.of_action {registry : Registry} {control : Control} {a : Accessor} {x : Action}
    {outer : List Frame} (h : Stands registry r loan control (.action a x :: outer)) :
    control = .run ∧ ∃ l, loan = some l ∧ l.mode = a.mode ∧ r.env l.handle = some a.storage := by
  generalize frames : Frame.action a x :: outer = stack at h
  cases h with
  | outside outside =>
    subst frames
    exact (outside _ List.mem_cons_self).elim
  | lending => cases frames
  | @within _ l b taken left inner below opened =>
    cases inner with
    | nil => cases frames
    | cons f inner =>
      cases frames
      exact (opened.waits _ List.mem_cons_self).elim
  | acting opened =>
    cases frames
    exact ⟨rfl, _, rfl, opened.mode, opened.bound⟩

/-- Host code may go on with other actions, as long as they keep to the blob. -/
theorem Stands.revise {registry : Registry} {l : Loan} {control : Control} {a : Accessor}
    {taken old new : List Action} {outer : List Frame}
    (h : Stands registry r (some l) control (.callback a old :: outer))
    (plan : l.callback = taken ++ old) (confined : ∀ x ∈ new, x.Confined) :
    Stands registry r (some { l with callback := taken ++ new }) control
      (.callback a new :: outer) := by
  generalize frames : Frame.callback a old :: outer = stack at h
  cases h with
  | @within _ _ b taken' left inner below opened resumes =>
    cases inner with
    | nil =>
      cases frames
      obtain rfl : taken = taken' := List.append_cancel_right (plan.symm.trans opened.plan)
      have revised : Loan.Open registry r { l with callback := taken ++ new } a taken new [] outer :=
        ⟨opened.bound, opened.mode, rfl, opened.waits, confined, opened.outside⟩
      exact .within revised resumes
    | cons f inner =>
      cases frames
      exact (opened.waits _ List.mem_cons_self).elim
  | acting => cases frames

namespace Machine

variable {m : Machine} {acts : List Act}

theorem Plays.registry_eq {w₀ : World} (run : Plays w₀ acts loan m) :
    m.world.registry = w₀.registry := by
  induction run with
  | start => rfl
  | call _ _ _ _ ih | revise _ _ _ _ _ _ _ _ _ _ _ _ ih => exact ih
  | offer _ _ _ _ _ _ _ ih | go _ _ _ _ _ _ ih => exact (World.registry_after _ _).trans ih

theorem Follows.start {config : MachineConfig} {registry : Registry} {w : World}
    (created : World.create config registry = .ok w) : Follows ⟨w, []⟩ .empty none := by
  have store : w.store = {} ∧ w.directory = {} := by
    rw [World.create] at created
    split at created <;> cases created
    exact ⟨rfl, rfl⟩
  refine ⟨⟨?_, ?_, ?_, Reference.sound_empty, ?_, ?_⟩, ?_, by simp, fun _ => rfl⟩
  · intro h
    rw [store.1]
    rfl
  · intro n
    rw [store.1]
    rfl
  · intro id
    rw [store.1]
    rfl
  · simp [store.2]
  · simp [store.2]
  · simp [World.queueAt_create created]

theorem Follows.call (h : m.Follows r loan) (ended : m.Ended) {c : Command}
    (confined : c.Confined m.world.registry) :
    Follows ⟨m.world, m.threads ++ [.ofCommand c]⟩ r loan := by
  obtain rfl := h.ended ended
  refine ⟨h.holds, h.queued, fun i t found busy => ?_, fun _ => rfl⟩
  rw [List.getElem?_append] at found
  split at found
  · exact (busy (ended t (List.mem_of_getElem? found))).elim
  · rw [List.getElem?_singleton, Option.ite_none_right_eq_some] at found
    obtain ⟨last, same⟩ := found
    cases same
    refine ⟨?_, .outside ?_⟩
    · rw [List.length_append, List.length_singleton]
      omega
    · exact List.forall_mem_singleton.2 confined

/-- Only a message that is pushed is new in a queue. -/
theorem queued_after {w : World} {d : Deed} (queued : ∀ i, ∀ message ∈ w.queueAt i, message.Confined)
    (pushed : ∀ i message, d = .push i message → message.Confined) :
    ∀ i, ∀ message ∈ (w.after d).queueAt i, message.Confined := by
  intro i message mem
  cases d with
  | push s other =>
    by_cases known : s < w.streams.length
    · rw [World.queueAt_push known] at mem
      rcases List.mem_append.1 mem with old | new
      · exact queued i message old
      · split at new
        · obtain rfl := List.mem_singleton.1 new
          exact pushed s message rfl
        · cases new
    · have same : (w.after (.push s other)).queueAt i = w.queueAt i := by
        rw [World.after, World.queueAt_updateStream, World.queueAt]
        split
        next here => rw [← here, List.getElem?_eq_none (by omega)]; rfl
        · rfl
      exact queued i message (same ▸ mem)
  | pop s =>
    rw [World.queueAt_pop] at mem
    split at mem
    · exact queued i message (List.mem_of_mem_tail mem)
    · exact queued i message mem
  | setExecuting s b => exact queued i message (World.queueAt_setExecuting w s i b ▸ mem)
  | complete s => exact queued i message (World.queueAt_complete w s i ▸ mem)
  | _ => exact queued i message mem

theorem Follows.offer (h : m.Follows r loan) (s : Nat) {message : Message}
    (confined : message.Confined) :
    Follows ⟨m.world.after (.push s message), m.threads⟩ r loan := by
  refine ⟨h.holds.apart (d := .push s message) trivial, queued_after h.queued ?_, ?_, h.ended⟩
  · rintro i other push
    cases push
    exact confined
  · rw [World.registry_after]
    exact h.live

theorem Follows.go (h : m.Follows r loan) {i : Nat} {t : Thread} {s : Step}
    (found : m.threads[i]? = some t) (step : t.step? m.world m.threads.length m.outcome? = some s) :
    ∃ r', r.run (t.effect m.world s.deed loan).1 = some r' ∧
      (m.stepped i s).Follows r' (t.effect m.world s.deed loan).2 := by
  have busy : t.frames ≠ [] := by
    intro none
    rw [Thread.step?, none] at step
    cases step
  obtain ⟨last, stands⟩ := h.live i t found busy
  have followed := Step.Followed.of_step h.holds h.queued stands step
  obtain ⟨r', acts, holds, stands'⟩ := followed.followed
  have threads : (m.stepped i s).threads = m.threads.set i s.thread := by
    rw [stepped, followed.alone, List.append_nil]
  have inside : i < m.threads.length := by omega
  refine ⟨r', acts, holds, queued_after h.queued followed.confined, fun j t' there live => ?_, ?_⟩
  · rw [threads, List.getElem?_set] at there
    rw [threads, List.length_set, stepped, World.registry_after]
    split at there
    next same =>
      cases there
      exact ⟨same ▸ last, stands'⟩
    next other =>
      have := (h.live j t' there live).1
      omega
  · intro ended
    have none : s.thread.frames = [] := ended s.thread (by
      rw [threads]
      exact List.mem_set inside s.thread)
    rw [none] at stands'
    exact stands'.eq_none

theorem Follows.revise {l : Loan} (h : m.Follows r (some l)) {i : Nat} {t : Thread} {a : Accessor}
    {taken old new : List Action} {outer : List Frame} (found : m.threads[i]? = some t)
    (frames : t.frames = .callback a old :: outer) (plan : l.callback = taken ++ old)
    (confined : ∀ x ∈ new, x.Confined) :
    Follows ⟨m.world, m.threads.set i { t with frames := .callback a new :: outer }⟩ r
      (some { l with callback := taken ++ new }) := by
  obtain ⟨last, stands⟩ := h.live i t found (by simp [frames])
  rw [frames] at stands
  have holds := h.holds
  refine ⟨⟨holds.env, holds.catalog, holds.cells, holds.sound, holds.handles, holds.storages⟩,
    h.queued, fun j t' there live => ?_, fun ended => ?_⟩
  · rw [List.getElem?_set] at there
    rw [List.length_set]
    split at there
    next same =>
      split at there <;> cases there
      exact ⟨same ▸ last, stands.revise plan confined⟩
    next other =>
      have := (h.live j t' there live).1
      omega
  · have none := ended _ (List.mem_set (by omega) _)
    cases none

theorem Plays.follows {config : MachineConfig} {registry : Registry} {w : World}
    (created : World.create config registry = .ok w) (run : Plays w acts loan m) :
    ∃ r, Reference.empty.run acts = some r ∧ m.Follows r loan := by
  induction run with
  | start => exact ⟨.empty, rfl, .start created⟩
  | call run c ended confined ih =>
    obtain ⟨r, made, follows⟩ := ih
    exact ⟨r, made, follows.call ended confined⟩
  | offer run s message ended known accepted confined ih =>
    obtain ⟨r, made, follows⟩ := ih
    exact ⟨r, made, follows.offer s confined⟩
  | go run i t s found step ih =>
    obtain ⟨r, made, follows⟩ := ih
    obtain ⟨r', more, follows⟩ := follows.go found step
    exact ⟨r', (Reference.run_append made _).trans more, follows⟩
  | revise run i t a taken old new outer found frames plan confined ih =>
    obtain ⟨r, made, follows⟩ := ih
    exact ⟨r, made, follows.revise found frames plan confined⟩

/-- A callback under way comes to its end, and to the act that it was to come to. -/
theorem Plays.finishes {config : MachineConfig} {registry : Registry} {w : World}
    (created : World.create config registry = .ok w) {l : Loan} (run : Plays w acts (some l) m)
    {i : Nat} {t : Thread} (found : m.threads[i]? = some t) (busy : t.frames ≠ []) :
    ∃ m' t' seen, Plays w (acts ++ [l.act]) none m' ∧ m.Reaches seen m' ∧
      m'.threads[i]? = some t' ∧ t'.frames = under t.frames ∧ t'.control ≠ .run := by
  induction work : t.weight using Nat.strong_induction_on generalizing m t l acts with
  | _ work' ih =>
    obtain ⟨r, made, follows⟩ := run.follows created
    have stands := (follows.live i t found busy).2
    obtain ⟨s, step⟩ := stands.goes follows.holds busy m.threads.length m.outcome?
    have run' := run.go i t s found step
    have moved := Reaches.refl.move (moves_of_goes found (.step step))
    have found' := getElem?_stepped found s
    obtain ⟨effect, frames, control⟩ | ⟨l', effect, act, busy', same, less⟩ := stands.continues step
    · rw [effect] at run'
      exact ⟨_, s.thread, _, run', moved, found', frames, control⟩
    · rw [effect, List.append_nil] at run'
      obtain ⟨m', t', seen, ended, reached, found, frames, control⟩ :=
        ih s.thread.weight (by omega) run' found' busy' rfl
      exact ⟨m', t', _, act ▸ ended, moved.trans reached, found, frames.trans same, control⟩

/-- An instruction that lends a blob has the whole callback done, and then goes on. -/
theorem Plays.lends {config : MachineConfig} {registry : Registry} {w : World}
    (created : World.create config registry = .ok w) (run : Plays w acts none m) {i : Nat} {t : Thread}
    {ins : Instruction} {p : Phase} {mode : AccessMode} {category : StreamCategory}
    {moves : List Move} {outer : List Frame} {handle : Handle} {callback : List Action}
    {id : StorageId} (found : m.threads[i]? = some t) (control : t.control = .run)
    (frames : t.frames = .phase ins p (.lendBlob mode category :: moves) :: outer)
    (lent : ins.lends? mode = some (handle, callback))
    (bound : m.world.store.binding? handle = some id) :
    ∃ m' t' seen, Plays w (acts ++ [mode.act handle callback]) none m' ∧
      m.Reaches seen m' ∧ m'.threads[i]? = some t' ∧ t'.frames = .phase ins p moves :: outer ∧
      t'.control ≠ .run := by
  have operand : ins.operand >>= Operand.expectCallback mode ins.name = .ok (handle, callback) := by
    rw [Instruction.lends?] at lent
    cases found : ins.operand >>= Operand.expectCallback mode ins.name <;> rw [found] at lent <;>
      cases lent
    rfl
  obtain ⟨s, a, step, same, run₁, frames₁⟩ : ∃ s a,
      t.step? m.world m.threads.length m.outcome? = some s ∧ a.mode = mode ∧
      s.thread.control = .run ∧
      s.thread.frames = .borrow a callback :: .phase ins p moves :: outer := by
    simp only [Thread.step?, frames, control, Thread.stepFrame?, Thread.stepMove, operand, bound]
    exact ⟨_, _, rfl, rfl, rfl, rfl⟩
  subst same
  have effect : t.effect m.world s.deed none = ([], none) := by simp [Thread.effect, frames, control]
  have played := run.go i t s found step
  rw [effect, List.append_nil] at played
  have moved := Reaches.refl.move (moves_of_goes found (.step step))
  have found₁ := getElem?_stepped found s
  -- The lock is free, so the blob is lent at once.
  obtain ⟨r, made, follows⟩ := played.follows created
  have busy : s.thread.frames ≠ [] := by simp [frames₁]
  obtain ⟨s₂, step₂⟩ := (follows.live i _ found₁ busy).2.goes follows.holds busy
    (m.stepped i s).threads.length (m.stepped i s).outcome?
  have frames₂ : s₂.thread.frames = .callback a callback :: .phase ins p moves :: outer := by
    simp only [Thread.step?, frames₁, run₁, Thread.stepFrame?] at step₂
    split at step₂ <;> cases step₂
    rfl
  have effect₂ : s.thread.effect (m.stepped i s).world s₂.deed none =
      ([], some ⟨handle, a.mode, callback, []⟩) := by
    simp [Thread.effect, frames₁, run₁, lent]
  have played₂ := played.go i _ s₂ found₁ step₂
  rw [effect₂, List.append_nil] at played₂
  have moved₂ := moved.move (moves_of_goes found₁ (.step step₂))
  obtain ⟨m', t', seen, ended, reached, found', frames', control'⟩ :=
    played₂.finishes created (getElem?_stepped found₁ s₂) (by simp [frames₂])
  rw [frames₂] at frames'
  exact ⟨m', t', _, ended, moved₂.trans reached, found', frames', control'⟩

/-- An instruction that links a handle does so in one step, and then goes on. -/
theorem Plays.links {w : World} (run : Plays w acts none m) {i : Nat} {t : Thread}
    {ins : Instruction} {p : Phase} {category : StreamCategory} {moves : List Move}
    {outer : List Frame} {handle : Handle} {name : String} (found : m.threads[i]? = some t)
    (control : t.control = .run)
    (frames : t.frames = .phase ins p (.bindPublished category :: moves) :: outer)
    (links : ins.links = [.link handle name]) :
    ∃ m' t' seen, Plays w (acts ++ [.link handle name]) none m' ∧ m.Reaches seen m' ∧
      m'.threads[i]? = some t' ∧ t'.frames = .phase ins p moves :: outer := by
  obtain ⟨s, step, frames'⟩ : ∃ s, t.step? m.world m.threads.length m.outcome? = some s ∧
      s.thread.frames = .phase ins p moves :: outer := by
    simp only [Thread.step?, frames, control, Thread.stepFrame?, Thread.stepMove]
    split
    · exact ⟨_, rfl, rfl⟩
    · split <;> exact ⟨_, rfl, rfl⟩
  have effect : t.effect m.world s.deed none = ([.link handle name], none) := by
    simp [Thread.effect, frames, control, links]
  have played := run.go i t s found step
  rw [effect] at played
  exact ⟨_, s.thread, _, played, Reaches.refl.move (moves_of_goes found (.step step)),
    getElem?_stepped found s, frames'⟩

theorem Follows.bound {l : Loan} (h : m.Follows r (some l)) : ∃ id, r.env l.handle = some id := by
  by_contra unbound
  have ended : m.Ended := by
    intro t mem
    by_contra busy
    obtain ⟨i, found⟩ := List.getElem?_of_mem mem
    exact unbound (h.live i t found busy).2.bound
  cases h.ended ended

/-- The store in terms of the reference, and what is seen of it on the way. -/
structure Refines (m : Machine) (r : Reference) (loan : Option Loan) : Prop where
  env : ∀ h, m.world.store.binding? h = r.env h
  catalog : ∀ n, m.world.store.published? n = r.catalog n
  heap : loan = none → ∀ id, m.world.store.blob? id = r.heap id
  /-- A command on the store comes to the acts that its names tell. -/
  commands : ∀ t ∈ m.threads, ∀ c outer, t.frames = .command (.store c) :: outer →
    t.control = .run → ∃ s, t.step? m.world m.threads.length m.outcome? = some s ∧
      t.effect m.world s.deed loan = (c.acts m.world, loan)
  /-- A callback under way has changed the blob behind its handle, by its accesses, and no other. -/
  lent : ∀ l, loan = some l → ∃ id blob, r.env l.handle = some id ∧ r.heap id = some blob ∧
    m.world.store.blob? id = some (l.result blob) ∧
    ∀ other, other ≠ id → m.world.store.blob? other = r.heap other
  /-- One that reads has changed nothing. -/
  read : ∀ l, loan = some l → l.mode = .read → ∀ id, m.world.store.blob? id = r.heap id
  /-- What an access comes to, it comes to on the blob behind the handle. -/
  shown : ∀ t ∈ m.threads, ∀ a x outer, t.frames = .action a (.access x) :: outer →
    ∃ l blob, loan = some l ∧ l.mode = a.mode ∧ r.env l.handle = some a.storage ∧
      r.heap a.storage = some blob ∧ (a.mode = .read → l.result blob = blob) ∧
      ∃ s, t.step? m.world m.threads.length m.outcome? = some s ∧ s.thread.control =
        match a.perform m.world (l.result blob) x with
        | .ok (reply, _) => .reply reply
        | .error panic => .unwind panic
  /-- Between commands no callback is under way. -/
  ended : m.Ended → loan = none
  /-- No thread is ever blocked. -/
  goes : ∀ t ∈ m.threads, t.frames ≠ [] →
    ∃ s, t.step? m.world m.threads.length m.outcome? = some s

theorem Follows.refines (h : m.Follows r loan) : m.Refines r loan where
  env := h.holds.env
  catalog := h.holds.catalog
  heap none := by
    subst none
    exact h.holds.blob?
  commands t mem c outer frames control := by
    obtain ⟨i, found⟩ := List.getElem?_of_mem mem
    have busy : t.frames ≠ [] := by simp [frames]
    obtain ⟨s, step⟩ := (h.live i t found busy).2.goes h.holds busy m.threads.length m.outcome?
    exact ⟨s, step, Thread.effect_of_store frames control step⟩
  lent l some := by
    subst some
    obtain ⟨id, bound⟩ := h.bound
    obtain ⟨blob, there, now⟩ := h.holds.lent bound
    exact ⟨id, blob, bound, there, now, fun other ne => h.holds.blob?_of_ne bound ne⟩
  read l some mode := by
    subst some
    obtain ⟨id, bound⟩ := h.bound
    exact h.holds.blob?_of_read bound mode
  shown t mem a x outer frames := by
    obtain ⟨i, found⟩ := List.getElem?_of_mem mem
    have stands := (h.live i t found (by simp [frames])).2
    rw [frames] at stands
    obtain ⟨run, l, rfl, mode, bound⟩ := stands.of_action
    obtain ⟨blob, there, now⟩ := h.holds.lent bound
    refine ⟨l, blob, rfl, mode, bound, there, fun reads => ?_, ?_⟩
    · rw [Loan.result, mode, reads, AccessMode.result_read]
    · simp only [Thread.step?, frames, run, Thread.stepFrame?, Thread.stepAction?, now]
      cases a.perform m.world (l.result blob) x <;> exact ⟨_, rfl, rfl⟩
  ended := h.ended
  goes t mem busy := by
    obtain ⟨i, found⟩ := List.getElem?_of_mem mem
    exact (h.live i t found busy).2.goes h.holds busy _ _

theorem Refines.content? (h : m.Refines r none) (k : Handle) : m.world.content? k = r.content? k := by
  rw [World.content?, Reference.content?, h.env]
  exact congrArg (r.env k >>= ·) (funext (h.heap rfl))

/-- How the store of a machine is related to those of all runs that come to one more act, and what the
instructions come to that it executes. -/
structure Lawful (w₀ : World) (acts : List Act) (m : Machine) : Prop where
  /-- A write replaces the blob behind its handle, and that is all. -/
  write : ∀ h callback m', Plays w₀ (acts ++ [.write h callback]) none m' →
    (∀ k, m'.world.store.binding? k = m.world.store.binding? k) ∧
    (∀ n, m'.world.store.published? n = m.world.store.published? n) ∧
    ∀ id, m'.world.store.blob? id = if m.world.store.binding? h = some id then
        (m.world.store.blob? id).map (AccessMode.write.callback callback)
      else m.world.store.blob? id
  /-- So it is seen through the handles that are bound to the same storage, and through no others. -/
  seen : ∀ h callback m', Plays w₀ (acts ++ [.write h callback]) none m' →
    ∀ k, m'.world.content? k = if m.world.store.binding? k = m.world.store.binding? h then
        (m.world.content? k).map (AccessMode.write.callback callback)
      else m.world.content? k
  read : ∀ h callback m', Plays w₀ (acts ++ [.read h callback]) none m' →
    (∀ k, m'.world.store.binding? k = m.world.store.binding? k) ∧
    (∀ n, m'.world.store.published? n = m.world.store.published? n) ∧
    ∀ id, m'.world.store.blob? id = m.world.store.blob? id
  /-- A link binds its handle to what is published now, if anything is, and that is all. -/
  link : ∀ h n m', Plays w₀ (acts ++ [.link h n]) none m' →
    (∀ k, m'.world.store.binding? k =
      if k = h ∧ (m.world.store.binding? h).isSome ∧ (m.world.store.published? n).isSome then
        m.world.store.published? n
      else m.world.store.binding? k) ∧
    (∀ n', m'.world.store.published? n' = m.world.store.published? n') ∧
    ∀ id, m'.world.store.blob? id = m.world.store.blob? id
  /-- A change of the catalog touches no handle, and nothing that is seen through one. -/
  catalog : ∀ a n, (a = .withdraw n ∨ ∃ id, a = .publish n id) → ∀ m', Plays w₀ (acts ++ [a]) none m' →
    ∀ k, m'.world.store.binding? k = m.world.store.binding? k ∧
      m'.world.content? k = m.world.content? k
  /-- An instruction that lends its blob goes on when the callback has come to its act, which it does. -/
  lends : ∀ (i : Nat) (t : Thread) (ins : Instruction) (p : Phase) (mode : AccessMode)
    (category : StreamCategory) (moves : List Move) (outer : List Frame) (handle : Handle)
    (callback : List Action) (id : StorageId), m.threads[i]? = some t → t.control = .run →
    t.frames = .phase ins p (.lendBlob mode category :: moves) :: outer →
    ins.lends? mode = some (handle, callback) → m.world.store.binding? handle = some id →
    ∃ m' t' seen, Plays w₀ (acts ++ [mode.act handle callback]) none m' ∧ m.Reaches seen m' ∧
      m'.threads[i]? = some t' ∧ t'.frames = .phase ins p moves :: outer ∧ t'.control ≠ .run
  links : ∀ (i : Nat) (t : Thread) (ins : Instruction) (p : Phase) (category : StreamCategory)
    (moves : List Move) (outer : List Frame) (handle : Handle) (name : String),
    m.threads[i]? = some t → t.control = .run →
    t.frames = .phase ins p (.bindPublished category :: moves) :: outer →
    ins.links = [.link handle name] →
    ∃ m' t' seen, Plays w₀ (acts ++ [.link handle name]) none m' ∧ m.Reaches seen m' ∧
      m'.threads[i]? = some t' ∧ t'.frames = .phase ins p moves :: outer

/-- A run that comes to one more act holds the reference's store after that act. -/
theorem Plays.next {config : MachineConfig} {registry : Registry} {w : World} {a : Act} {m' : Machine}
    (created : World.create config registry = .ok w) (run : Plays w (acts ++ [a]) none m')
    (made : Reference.empty.run acts = some r) : ∃ r', r.next? a = some r' ∧ m'.Refines r' none := by
  obtain ⟨r', made', follows⟩ := run.follows created
  rw [Reference.run_append made, Reference.run_one] at made'
  exact ⟨r', made', follows.refines⟩

theorem Refines.lawful {config : MachineConfig} {registry : Registry} {w : World}
    (created : World.create config registry = .ok w) (run : Plays w acts none m)
    (made : Reference.empty.run acts = some r) (h : m.Refines r none) : m.Lawful w acts where
  write x callback m' run := by
    obtain ⟨r', step, h'⟩ := run.next created made
    obtain ⟨id, bound, rfl⟩ := Option.map_eq_some_iff.1 step
    refine ⟨fun k => (h'.env k).trans (h.env k).symm, fun n => (h'.catalog n).trans (h.catalog n).symm,
      fun other => ?_⟩
    rw [h'.heap rfl, h.env, h.heap rfl, bound]
    simp only [Function.update_apply, Option.some.injEq, eq_comm (a := other)]
    split
    next same => rw [same]
    · rfl
  seen x callback m' run k := by
    obtain ⟨r', step, h'⟩ := run.next created made
    rw [h'.content?, h.content?, h.env, h.env]
    exact Reference.content?_of_write step k
  read x callback m' run := by
    obtain ⟨r', step, h'⟩ := run.next created made
    obtain ⟨-, -, rfl⟩ := Option.map_eq_some_iff.1 step
    exact ⟨fun k => (h'.env k).trans (h.env k).symm, fun n => (h'.catalog n).trans (h.catalog n).symm,
      fun id => (h'.heap rfl id).trans (h.heap rfl id).symm⟩
  link x n m' run := by
    obtain ⟨r', step, h'⟩ := run.next created made
    obtain ⟨heap, catalog⟩ := Reference.rest_of_link step
    refine ⟨fun k => ?_, fun n' => ?_, fun id => ?_⟩
    · rw [h'.env, h.env, h.env, h.catalog]
      exact Reference.env_of_link step k
    · rw [h'.catalog, h.catalog, catalog]
    · rw [h'.heap rfl, h.heap rfl, heap]
  catalog a n change m' run k := by
    obtain ⟨r', step, h'⟩ := run.next created made
    obtain ⟨env, heap⟩ := Reference.rest_of_catalog change step
    refine ⟨?_, ?_⟩
    · rw [h'.env, h.env, env]
    · rw [h'.content?, h.content?, Reference.content?, Reference.content?, heap, env]
  lends _ _ _ _ _ _ _ _ _ _ _ found control frames lent bound :=
    run.lends created found control frames lent bound
  links _ _ _ _ _ _ _ _ _ found control frames links := run.links found control frames links

/-- Whatever one thread after another does, the store is that of the reference. -/
theorem refines_of_plays {config : MachineConfig} {registry : Registry} {w : World}
    (created : World.create config registry = .ok w) (run : Plays w acts loan m) :
    ∃ r, Reference.empty.run acts = some r ∧ m.Refines r loan ∧ (loan = none → m.Lawful w acts) := by
  obtain ⟨r, made, follows⟩ := run.follows created
  refine ⟨r, made, follows.refines, ?_⟩
  rintro rfl
  exact follows.refines.lawful created run made

/-- A run as far as it has come, with what it comes to. -/
structure Play where
  machine : Machine
  acts : List Act := []
  loan : Option Loan := none

namespace Play

/-- The last thread takes a step. -/
def next? (p : Play) : Option Play := do
  let t ← p.machine.threads.getLast?
  let s ← t.step? p.machine.world p.machine.threads.length p.machine.outcome?
  pure ⟨p.machine.stepped (p.machine.threads.length - 1) s,
    p.acts ++ (t.effect p.machine.world s.deed p.loan).1, (t.effect p.machine.world s.deed p.loan).2⟩

def goOn : Nat → Play → Play
  | 0, p => p
  | n + 1, p => p.next?.elim p (goOn n)

/-- New threads take up commands, one after another, each when all others have ended. -/
def session (steps : Nat) (p : Play) : List Command → Option Play
  | [] => some p
  | c :: cs =>
    if p.machine.threads.all (·.frames.isEmpty) then
      session steps (goOn steps
        { p with machine := ⟨p.machine.world, p.machine.threads ++ [.ofCommand c]⟩ }) cs
    else none

variable {w₀ : World} {p : Play}

theorem plays_goOn (h : Plays w₀ p.acts p.loan p.machine) (steps : Nat) :
    Plays w₀ (goOn steps p).acts (goOn steps p).loan (goOn steps p).machine := by
  induction steps generalizing p with
  | zero => exact h
  | succ steps ih =>
    rw [goOn]
    cases next : p.next? with
    | none => exact h
    | some p' =>
      refine ih ?_
      simp only [next?, Option.bind_eq_bind, Option.bind_eq_some_iff] at next
      obtain ⟨t, last, s, step, next⟩ := next
      cases next
      rw [List.getLast?_eq_getElem?] at last
      exact h.go _ t s last step

theorem plays_session {steps : Nat} {cs : List Command} {p' : Play}
    (h : Plays w₀ p.acts p.loan p.machine) (confined : ∀ c ∈ cs, c.Confined w₀.registry)
    (done : p.session steps cs = some p') : Plays w₀ p'.acts p'.loan p'.machine := by
  induction cs generalizing p with
  | nil =>
    cases done
    exact h
  | cons c cs ih =>
    rw [session, Option.ite_none_right_eq_some] at done
    have ended : p.machine.Ended := fun t mem =>
      List.isEmpty_iff.1 (List.all_eq_true.1 done.1 t mem)
    have first : c.Confined p.machine.world.registry := by
      rw [h.registry_eq]
      exact confined c List.mem_cons_self
    exact ih (plays_goOn (h.call c ended first) steps)
      (fun c mem => confined c (List.mem_cons_of_mem _ mem)) done.2

end Play

def linkRegistry : Registry :=
  (Registry.empty.insert ⟨"write", 0, .cpu, .lending .write .cpu⟩).insert
    ⟨"link", 1, .host, .lazyReference .host⟩

/-- The pair of streams with an instruction kind that writes and one that links. -/
def linkPair : World := { idlePair with registry := linkRegistry }

/-- The messages are handed in before there is anything to link to. -/
def linkSession : List Command :=
  [.store (.newBlob "a" (.words ⟨[1]⟩ [7])), .store (.newBlob "b" (.words ⟨[1]⟩ [5])),
    .receive "link" (.lazyReference "b" "p"),
    .receive "write" (.write "b" [.access (.writeWords [9])]), .store (.grab "a" "s"),
    .store (.publish "p" "s"), .schedule, .store (.withdraw "p")]

theorem confined_linkSession : ∀ c ∈ linkSession, c.Confined linkRegistry := by
  have writes : linkRegistry.Works "write" := by
    intro d found
    cases found
    exact ⟨.cpu, .inl ⟨.write, rfl⟩⟩
  have links : linkRegistry.Works "link" := by
    intro d found
    cases found
    exact ⟨.host, .inr rfl⟩
  simp only [linkSession, List.forall_mem_cons]
  simp [Command.Confined, StoreCommand.Confined, OperandSpec.Confined, Action.Confined, writes, links]

/-- The write through the second handle is seen through the first, to whose storage it is linked by then;
that the catalog has forgotten the storage makes no difference. -/
theorem refines_of_linked : ∃ p : Play,
    World.create {} linkRegistry = .ok linkPair ∧ Plays linkPair p.acts p.loan p.machine ∧
    p.acts.length = 8 ∧ p.machine.world.store.published? "p" = none ∧
    p.machine.world.content? ⟨"a", 0⟩ = some ⟨⟨[1]⟩, .f32, [9, 0, 0, 0]⟩ ∧ p.loan = none ∧
    ∃ r, Reference.empty.run p.acts = some r ∧ p.machine.Refines r p.loan ∧
      (p.loan = none → p.machine.Lawful linkPair p.acts) := by
  have created : World.create {} linkRegistry = .ok linkPair := rfl
  let start : Play := ⟨⟨linkPair, []⟩, [], none⟩
  have comesTo : ((start.session 60 linkSession).map fun p => (p.acts.length,
      p.machine.world.store.published? "p", p.machine.world.content? ⟨"a", 0⟩, p.loan.isNone)) =
      some (8, none, some ⟨⟨[1]⟩, .f32, [9, 0, 0, 0]⟩, true) := by decide +kernel
  obtain ⟨p, done, facts⟩ := Option.map_eq_some_iff.1 comesTo
  simp only [Prod.mk.injEq, Option.isNone_iff_eq_none] at facts
  obtain ⟨acts, withdrawn, seen, ended⟩ := facts
  have begun : Plays linkPair start.acts start.loan start.machine := .start
  have run := Play.plays_session begun confined_linkSession done
  exact ⟨p, created, run, acts, withdrawn, seen, ended, refines_of_plays created run⟩

end Machine

end StreamMachine
