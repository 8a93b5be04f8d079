import StreamMachine.Proofs.Stretch

/-! When an instruction that is under way has begun. An instruction comes onto a stack by itself, and
what stands above it later came after it, so a call that is found within an instruction has been at the
moment at which that began, and has stayed within it since. -/
namespace StreamMachine

/-- Frames other than those that run instructions. -/
def Frame.Idle : Frame → Prop
  | .run .. => False
  | _ => True

theorem Frame.Fresh.idle {f : Frame} (fresh : f.Fresh) : f.Idle := by
  cases f <;> first | exact fresh.elim | trivial

/-- What has been put on a stack has an instruction below it only if the stack has it. -/
theorem exists_below_run (added pre : List Frame) {rest outer : List Frame} {i : Instruction}
    {phases : List Phase} (idle : ∀ f ∈ added, f.Idle)
    (stack : added ++ rest = pre ++ .run i phases :: outer) :
    ∃ pre', rest = pre' ++ .run i phases :: outer := by
  induction added generalizing pre with
  | nil => exact ⟨pre, stack⟩
  | cons f added ih =>
    obtain ⟨top, later⟩ := List.forall_mem_cons.1 idle
    cases pre with
    | nil =>
      cases (List.cons.inj stack).1
      exact top.elim
    | cons g pre => exact ih pre later (List.cons.inj stack).2

/-- An instruction that has something above it has had that before, or has just got to its next
phase. -/
theorem Stride.below_run {w : World} {t : Thread} {r : Step} (h : Stride w t r) {f : Frame}
    {pre outer : List Frame} {i : Instruction} {phases : List Phase}
    (stack : r.thread.frames = f :: (pre ++ .run i phases :: outer)) :
    (∃ g pre', t.frames = g :: (pre' ++ .run i phases :: outer)) ∨
      t.frames = .run i phases :: outer ∧ t.control = .run := by
  have within {g : Frame} {rest : List Frame} (added : List Frame) (frames : t.frames = g :: rest)
      (idle : ∀ f ∈ added, f.Idle)
      (stack : added ++ rest = f :: (pre ++ .run i phases :: outer)) :
      ∃ g pre', t.frames = g :: (pre' ++ .run i phases :: outer) := by
    obtain ⟨before, rfl⟩ := exists_below_run added (f :: pre) idle stack
    exact ⟨g, before, frames⟩
  cases h with
  | plain frame rest added frames _ stack' fresh =>
    exact .inl (within added frames (fun f hf => (fresh f hf).idle) (stack'.symm.trans stack))
  | move j p old new rest added frames stack' fresh =>
    refine .inl (within (added ++ [.phase j p new]) frames (fun f hf => ?_) ?_)
    · obtain hf | hf := List.mem_append.1 hf
      · exact (fresh f hf).idle
      · cases List.mem_singleton.1 hf
        trivial
    · rw [← List.append_cons, ← stack', stack]
  | begin j p phases' rest frames run =>
    have tails := (List.cons.inj stack).2
    cases pre with
    | nil =>
      cases tails
      exact .inr ⟨frames, run⟩
    | cons g pre => exact .inl ⟨_, pre, frames.trans (congrArg _ (List.cons.inj tails).2)⟩
  | returned _ _ _ frames | aborted _ _ _ _ _ frames | refuse _ _ _ _ _ frames
  | done _ _ _ frames | fall _ _ _ _ frames | sum _ _ frames | forsake _ _ _ _ frames =>
    exact .inl (within [] frames (by simp) stack)
  | advance _ _ _ _ _ frames =>
    exact .inl ⟨_, pre, frames.trans (congrArg _ (List.cons.inj stack).2)⟩
  | visit s left total rest frames =>
    exact .inl (within [.drain s .enter 0, .schedule left total] frames
      (by simp [Frame.Idle]) stack)
  | collect left total rest reply frames =>
    exact .inl (within [.schedule left _] frames (by simp [Frame.Idle]) stack)
  | drain s p e rest frames turn =>
    cases turn with
    | busy _ _ _ frames' | rest _ _ _ frames' | abandon _ _ _ _ _ frames' =>
      exact .inl (within [] frames' (by simp) stack)
    | seize _ _ _ frames' | dry _ _ _ _ frames' | yield _ _ _ frames' | again _ _ _ frames'
    | complete _ _ _ _ _ frames' =>
      exact .inl (within [.drain _ _ _] frames' (by simp [Frame.Idle]) stack)
    | start s e p rest' m queue frames' =>
      have tails : [Frame.drain s .execute e] ++ rest' = pre ++ .run i phases :: outer :=
        (List.cons.inj stack).2
      obtain ⟨before, rfl⟩ := exists_below_run _ pre (by simp [Frame.Idle]) tails
      exact .inl ⟨_, before, frames'⟩
    | calm _ _ _ frames' top | push _ _ _ _ _ _ frames' top | drain _ _ _ _ frames' top
    | enlist _ _ _ frames' top =>
      cases frames.symm.trans frames'
      exact top.elim
    | dismiss _ _ _ frames' | proceed _ _ _ _ _ _ _ frames' | finish _ _ _ _ _ frames' =>
      cases frames.symm.trans frames'

/-- Host code that changes its mind is not an instruction. -/
theorem Thread.Revised.below_run {t t' : Thread} (h : t.Revised t') {pre outer : List Frame}
    {i : Instruction} {phases : List Phase} (stack : t'.frames = pre ++ .run i phases :: outer) :
    ∃ g pre', t.frames = g :: (pre' ++ .run i phases :: outer) := by
  cases h with
  | moves j p old new rest frames =>
    obtain ⟨pre', rfl⟩ := exists_below_run [.phase j p new] pre (by simp [Frame.Idle]) stack
    exact ⟨_, pre', frames⟩
  | actions a old new rest frames =>
    obtain ⟨pre', rfl⟩ := exists_below_run [.callback a new] pre (by simp [Frame.Idle]) stack
    exact ⟨_, pre', frames⟩

namespace Call

variable {c : Call} {m₀ m₁ m : Machine} {own : List Pace} {t : Thread} {i : Instruction}
  {phases : List Phase} {outer : List Frame}

/-- Threads that are not of a call stand still. -/
theorem Follows.untouched (run : c.Follows m₀ own m) (awaited : c.Awaited m₀) {j : Nat}
    (low : j < c.floor) (apart : j ≠ c.place) : m.threads[j]? = m₀.threads[j]? := by
  induction run with
  | refl => rfl
  | own run t r found above goes ih =>
    have inside := low.trans_le (run.awaited awaited).inside
    rw [Machine.getElem?_stepped_of_ne inside apart, ih]
  | other run k t r started found goes ih =>
    have inside := low.trans_le (run.awaited awaited).inside
    rw [Machine.getElem?_stepped_of_ne inside (by omega), ih]
  | decide run k t t' found covered host revised ih =>
    have other : k ≠ j := by
      obtain ⟨rfl, -⟩ | started := covered
      · exact apart.symm
      · omega
    rw [List.getElem?_set_ne other, ih]

/-- The moment of a run at which an instruction on given frames is about to go through phases that
are left to it. -/
structure Onset (c : Call) (m₀ : Machine) (i : Instruction) (phases : List Phase)
    (outer : List Frame) (own : List Pace) (m : Machine) : Prop where
  run : c.Follows m₀ own m
  ready : ∃ t, m.threads[c.place]? = some t ∧ t.frames = .run i phases :: outer ∧ t.control = .run

/-- A run that has been at such a moment, and has stayed within the instruction since. -/
def Within (c : Call) (m₀ : Machine) (i : Instruction) (phases : List Phase) (outer : List Frame)
    (own : List Pace) (m : Machine) : Prop :=
  ∃ before m₁ later, own = before ++ later ∧ c.Onset m₀ i phases outer before m₁ ∧
    Follows ⟨c.place, outer, m₁.threads.length⟩ m₁ later m

/-- What the call had started before has ended by then. -/
theorem Onset.ended (onset : c.Onset m₀ i phases outer own m₁) (awaited : c.Awaited m₀) {k : Nat}
    {later : List Pace} (run : Follows ⟨c.place, outer, m₁.threads.length⟩ m₁ later m)
    (started : c.floor ≤ k) (found : m.threads[k]? = some t) (live : t.frames ≠ []) :
    m₁.threads.length ≤ k := by
  obtain ⟨x, foundx, frames, -⟩ := onset.ready
  have before := onset.run.awaited awaited
  by_contra early
  have apart : k ≠ c.place := by
    have := before.early
    omega
  have same := run.untouched (.init foundx rfl) (not_le.1 early) apart
  refine live (before.ended foundx (fun ids waits => ?_) started (same.symm.trans found))
  obtain ⟨-, rest, joins⟩ := waits
  rw [frames] at joins
  cases joins

theorem Follows.within (run : c.Follows m₀ own m) (awaited : c.Awaited m₀)
    (start : ∀ x, m₀.threads[c.place]? = some x → ∀ f ∈ x.frames, f.Idle)
    (found : m.threads[c.place]? = some t) (pre : List Frame)
    (stack : t.frames = pre ++ .run i phases :: outer) (inside : pre = [] → t.control = .run) :
    c.Within m₀ i phases outer own m := by
  induction run generalizing t pre with
  | refl =>
    have idle := start t found (.run i phases) (by simp [stack])
    exact idle.elim
  | @own m own run t' r found' above goes ih =>
    obtain rfl := Option.some.inj ((Machine.getElem?_stepped found' r).symm.trans found)
    cases pre with
    | nil =>
      have now := run.own t' r found' above goes
      exact ⟨_, _, [], (List.append_nil _).symm, ⟨now, _, found, stack, inside rfl⟩, .refl⟩
    | cons f pre =>
      have earlier : c.Within m₀ i phases outer own m ∧ outer.length < t'.frames.length := by
        obtain ⟨g, pre', frames⟩ | ⟨frames, running⟩ := goes.turn_stride.2.below_run stack
        · refine ⟨ih found' (g :: pre') frames (by simp), ?_⟩
          simp only [frames, List.length_cons, List.length_append]
          omega
        · exact ⟨ih found' [] frames fun _ => running, by simp [frames]⟩
      obtain ⟨⟨before, m₁, later, rfl, onset, since⟩, above'⟩ := earlier
      exact ⟨before, m₁, _, List.append_assoc .., onset, since.own t' r found' above' goes⟩
  | @other m own run k t' r started found' goes ih =>
    have later := run.awaited awaited
    have apart : c.place ≠ k := by
      have := later.early
      omega
    rw [Machine.getElem?_stepped_of_ne (later.early.trans_le later.inside) apart] at found
    obtain ⟨before, m₁, later, rfl, onset, since⟩ := ih found pre stack inside
    have new := onset.ended awaited since started found' goes.frames_ne_nil
    exact ⟨before, m₁, later, rfl, onset, since.other k t' r new found' goes⟩
  | @decide m own run k u u' found' covered host revised ih =>
    obtain ⟨rfl, above⟩ | started := covered
    · rw [List.getElem?_set_self (List.getElem?_eq_some_iff.1 found').1] at found
      obtain rfl := Option.some.inj found
      obtain ⟨g, pre', frames⟩ := revised.below_run stack
      obtain ⟨before, m₁, later, rfl, onset, since⟩ := ih found' (g :: pre') frames (by simp)
      have above' : outer.length < u.frames.length := by
        simp only [frames, List.length_cons, List.length_append]
        omega
      exact ⟨before, m₁, later, rfl, onset,
        since.decide _ u u' found' (.inl ⟨rfl, above'⟩) host revised⟩
    · have apart : k ≠ c.place := by
        have := (run.awaited awaited).early
        omega
      rw [List.getElem?_set_ne apart] at found
      obtain ⟨before, m₁, later, rfl, onset, since⟩ := ih found pre stack inside
      have new := onset.ended awaited since started found' revised.frames_ne_nil
      exact ⟨before, m₁, later, rfl, onset, since.decide k u u' found' (.inr new) host revised⟩

end Call

end StreamMachine
