import StreamMachine.Proofs.Accounts

/-! What a step reports. It gives one notice at most, within the spans of its thread, and tells of
an enqueued message just before a stream accepts it. -/
namespace StreamMachine

/-- Occurrences that are neither an event nor the acceptance of a message. -/
def Occurrence.Mute : Occurrence → Prop
  | .traced _ | .accepted .. => False
  | _ => True

def Notice.IsEnqueued : Notice → Prop
  | .enqueued .. => True
  | _ => False

/-- What a thread reports in one step. -/
inductive Thread.Says (w : World) (t : Thread) : List Occurrence → Prop
  | nothing {seen : List Occurrence} (mute : ∀ o ∈ seen, o.Mute) : Says w t seen
  | notice (n : Notice) (other : ¬n.IsEnqueued) : Says w t [t.notice n]
  | enqueued (s : Nat) (m : Message) (known : s < w.streams.length)
      (taken : w.enqueue s m = .accepted s m) :
      Says w t [t.notice (.enqueued m.name (w.categoryAt s) (w.deviceAt s)), .accepted s m]

namespace Thread.Says

variable {w : World} {t : Thread} {outer : List Frame} {r : Step}

theorem silence : t.Says w [] := .nothing (by simp)

theorem of_raise (frames : List Frame) (panic : Panic) : t.Says w (t.raise frames panic).seen := by
  cases panic with
  | violation v => exact .notice _ id
  | storage | piece | raised => exact silence

theorem of_enqueue {s : Nat} (known : s < w.streams.length) (m : Message) (outer : List Frame) :
    t.Says w (t.submit w outer (w.enqueue s m)).seen := by
  have outcome : w.enqueue s m = .accepted s m ∨ ∃ error, w.enqueue s m = .rejected error := by
    unfold World.enqueue
    split_ifs
    · exact .inl rfl
    · exact .inr ⟨_, rfl⟩
  obtain taken | ⟨error, refused⟩ := outcome
  · rw [taken]
    exact .enqueued s m known taken
  · rw [refused]
    exact silence

theorem of_receive (m : Message) (outer : List Frame) :
    t.Says w (t.submit w outer (w.receiveMessage m)).seen := by
  unfold World.receiveMessage
  split
  next found => exact of_enqueue (World.lt_of_streamOf? found) m outer
  · exact silence

theorem of_command {c : Command} {fresh : Nat} (h : t.stepCommand? w fresh c outer = some r) :
    t.Says w r.seen := by
  unfold Thread.stepCommand? at h
  cases c with
  | store command =>
    dsimp only at h
    split at h <;> cases h
    · exact of_raise ..
    · exact silence
  | query command =>
    dsimp only at h
    split at h <;> cases h
    · exact of_raise ..
    · exact silence
  | receive name operand | receiveMessage name operand =>
    dsimp only at h
    split at h <;> cases h
    · exact of_raise ..
    · exact of_receive ..
  | enqueue category name operand =>
    dsimp only at h
    split at h
    · cases h
      exact of_raise ..
    · split at h <;> cases h
      · exact silence
      next found => exact of_enqueue (World.lt_of_streamOf? found) ..
  | schedule | scheduleConcurrently =>
    cases h
    exact silence
  | runPending category =>
    dsimp only at h
    split at h <;> cases h <;> exact silence

theorem of_drain (s e : Nat) (p : DrainPoint) (outer : List Frame) :
    t.Says w (t.stepDrain w s p e outer).seen := by
  unfold Thread.stepDrain
  refine .nothing ?_
  cases p with
  | leave => simp
  | enter | take | execute | recheck =>
    dsimp only
    split <;> simp [Occurrence.Mute]

theorem of_run (i : Instruction) (phases : List Phase) (outer : List Frame) :
    t.Says w (t.stepRun i phases outer).seen := by
  unfold Thread.stepRun
  split
  · exact silence
  · split
    · exact of_raise ..
    · exact .nothing (by simp [Occurrence.Mute])

theorem of_move (i : Instruction) (move : Move) (inner : List Frame) :
    t.Says w (t.stepMove w i move inner).seen := by
  cases move with
  | report what query =>
    unfold Thread.stepMove
    dsimp only
    split
    · exact .nothing (by simp [Occurrence.Mute])
    · exact of_raise ..
  | panic message => exact of_raise ..
  | drainOwn | issue => exact silence
  | lendBlob mode bound | bindPublished bound =>
    unfold Thread.stepMove
    dsimp only
    split
    · exact of_raise ..
    · split
      · exact of_raise ..
      · exact .notice _ id

theorem of_action {a : Accessor} {action : Action} (h : t.stepAction? w a action outer = some r) :
    t.Says w r.seen := by
  cases action with
  | access access =>
    unfold Thread.stepAction? at h
    cases h
    split
    · exact of_raise ..
    · split
      · exact silence
      · exact of_raise ..
  | panic message =>
    cases h
    exact of_raise ..
  | attempt | step | thread | signal =>
    cases h
    exact silence
  | wait gate =>
    unfold Thread.stepAction? at h
    dsimp only at h
    split at h <;> cases h
    exact silence

theorem of_frame {frame : Frame} {fresh : Nat} {outcomes : Nat → Option (Except Panic Reply)}
    (h : t.stepFrame? w fresh outcomes frame outer = some r) : t.Says w r.seen := by
  cases frame with
  | command command => exact of_command h
  | schedule left total =>
    cases left <;> cases h <;> exact silence
  | drain s p e =>
    cases h
    exact of_drain ..
  | run i phases =>
    cases h
    exact of_run ..
  | phase i phase moves =>
    cases moves <;> cases h
    · exact .nothing (by simp [Occurrence.Mute])
    · exact of_move ..
  | borrow a actions =>
    unfold Thread.stepFrame? at h
    dsimp only at h
    split at h <;> cases h
    exact silence
  | callback a actions =>
    cases actions <;> cases h <;> exact silence
  | action a action => exact of_action h
  | log | logDrain | catching | helper =>
    cases h
    exact silence
  | join threads =>
    unfold Thread.stepFrame? at h
    dsimp only at h
    split at h
    · cases h
    · split at h <;> cases h <;> exact silence

theorem of_reply (reply : Reply) (frame : Frame) (outer : List Frame) :
    t.Says w (t.stepReply w reply frame outer).seen := by
  refine .nothing ?_
  cases frame with
  | run i phases => cases phases <;> simp [Thread.stepReply]
  | _ => simp [Thread.stepReply, Occurrence.Mute]

theorem of_unwind (panic : Panic) (frame : Frame) (outer : List Frame) :
    t.Says w (t.stepUnwind panic frame outer).seen := by
  refine .nothing ?_
  cases frame <;> simp [Thread.stepUnwind, Occurrence.Mute]

theorem of_step? {fresh : Nat} {outcomes : Nat → Option (Except Panic Reply)}
    (h : t.step? w fresh outcomes = some r) : t.Says w r.seen := by
  unfold Thread.step? at h
  split at h
  · cases h
  · split at h
    · exact of_frame h
    · cases h
      exact of_reply ..
    · cases h
      exact of_unwind ..

theorem of_goes {m : Machine} (goes : t.Goes m r) : t.Says m.world r.seen := by
  cases goes with
  | step taken => exact of_step? taken
  | expire => exact silence

end Thread.Says

end StreamMachine
