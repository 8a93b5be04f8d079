import StreamMachine.Proofs.Prompt

/-! What panics do to a stream: they end the calls that they unwind, one each, and lose no message
but the one that panics. -/
namespace StreamMachine

open Relation (ReflTransGen)

/-- How a stream comes through panics. -/
structure Machine.Resilient (category : StreamCategory) (s : Nat) (m₀ : Machine) : Prop where
  /-- Any call that unwinds, on whatever frames it stands, leaves the messages that it has not
  started to the next call. -/
  interrupted : ∀ (c : Call) trace seen m panic, c.Begins s m₀ → c.Runs m₀ trace seen m →
    c.Ends m (.unwind panic) → c.Interrupted s panic m₀ trace seen m
  /-- Calls that are made until one returns run all messages. -/
  recovered : m₀.world.executingAt s = false → ∀ x reply, Retry.Reached category m₀ x →
    x.machine.outcome? x.place = some (.ok reply) →
    Retry.Recovered s m₀ x reply (m₀.world.queueAt s ++ acceptedOn s x.seen)
  /-- If the messages submit no further work and their instructions end, then one of the calls does
  return, and there is no other end. -/
  inevitable : m₀.world.executingAt s = false → Retry.Tame category s m₀ →
    Inevitable (Retry.Next category) (fun x => ∃ reply,
      x.machine.outcome? x.place = some (.ok reply) ∧
      Retry.Recovered s m₀ x reply (m₀.world.queueAt s)) (Retry.first category m₀)

/-- A machine at any moment from its creation on; what its other threads are in the middle of does
not matter. -/
theorem resilient_of_reaches {config : MachineConfig} {registry : Registry} {w : World}
    (created : World.create config registry = .ok w) {m : Machine} {past : List Occurrence}
    (earlier : Machine.Reaches ⟨w, []⟩ past m) {category : StreamCategory} {s : Nat}
    (known : m.world.streamOf? category = some s) : m.Resilient category s := by
  have sound : m.Sound past := by simpa using (Machine.Sound.init created).after earlier
  exact ⟨fun c trace seen m' panic begins run ended => run.interrupted begins sound ended,
    fun free x reply h returned => h.recovered sound known free returned,
    fun free tame => tame.recovers sound known free⟩

namespace Retry

variable {category : StreamCategory} {x y : Retry}

/-- The next move, if the thread of the call takes it. -/
def next? (category : StreamCategory) (x : Retry) : Option Retry :=
  match x.machine.outcome? x.place with
  | some (.error panic) => some { x with
      machine := x.machine.called category
      place := x.machine.threads.length
      caught := x.caught ++ [panic] }
  | _ => do
    let t ← x.machine.threads[x.place]?
    let r ← t.step? x.machine.world x.machine.threads.length x.machine.outcome?
    pure { x with
      machine := x.machine.stepped x.place r
      trace := x.trace ++ [⟨t, r⟩]
      seen := x.seen ++ r.seen }

theorem next_of_next? (h : x.next? category = some y) : Next category x y := by
  simp only [next?] at h
  split at h
  next panic unwound =>
    cases h
    exact .again panic unwound
  · simp only [Option.bind_eq_bind, Option.bind_eq_some_iff] at h
    obtain ⟨t, found, r, taken, h⟩ := h
    cases h
    have goes : t.Goes x.machine r := .step taken
    have live := goes.frames_ne_nil
    exact .go x.place t r found (.inl ⟨rfl, by simpa [call, List.length_pos_iff] using live⟩) goes

/-- Some moves further. -/
def ahead (category : StreamCategory) : Nat → Retry → Retry
  | 0, x => x
  | n + 1, x => match x.next? category with
    | none => x
    | some y => ahead category n y

theorem path_ahead (category : StreamCategory) (n : Nat) (x : Retry) :
    ReflTransGen (Next category) x (ahead category n x) := by
  induction n generalizing x with
  | zero => exact .refl
  | succ n ih =>
    rw [ahead]
    split
    · exact .refl
    next y step => exact .head (next_of_next? step) (ih y)

end Retry

/-- Five messages on the host stream, of which the second panics as it infers and the fourth as it
computes. -/
def patchyMessages : List Message :=
  [.probe .host [] [], .probe .host [.panic "infer"] [], .probe .host [] [],
    .probe .host [] [.panic "compute"], .probe .host [] []]

def patchyFive : Machine := ⟨patchyMessages.foldl (fun w m => w.after (.push 0 m)) idlePair, []⟩

theorem prompt_of_mem_patchyMessages : ∀ message ∈ patchyMessages, message.Prompt := by
  have prompt (infer compute : List Move) (h : ∀ move ∈ infer ++ compute, move.Prompt) :
      (Message.probe .host infer compute).Prompt := by
    intro phase move mem
    refine h move ?_
    cases phase
    · exact List.mem_append_left _ mem
    · exact List.mem_append_right _ mem
  simp only [patchyMessages, List.forall_mem_cons]
  refine ⟨prompt _ _ ?_, prompt _ _ ?_, prompt _ _ ?_, prompt _ _ ?_, prompt _ _ ?_, by simp⟩
  all_goals simp [Move.Prompt]

theorem reaches_patchyFive : ∃ seen, Machine.Reaches ⟨idlePair, []⟩ seen patchyFive :=
  ⟨_, ((((Machine.Reaches.refl.move (.offer 0 _ (by decide) rfl)).move
    (.offer 0 _ (by decide) rfl)).move (.offer 0 _ (by decide) rfl)).move
    (.offer 0 _ (by decide) rfl)).move (.offer 0 _ (by decide) rfl)⟩

/-- Two calls unwind, the second out of the fourth message, and the third counts the last one. -/
theorem resilient_of_patchyFive : ∃ past, World.create {} .empty = .ok idlePair ∧
    Machine.Reaches ⟨idlePair, []⟩ past patchyFive ∧ patchyFive.Resilient .host 0 ∧
    (∃ (c : Call) (past seen : List Occurrence) (m₁ m : Machine) (trace : List Pace),
      Machine.Reaches ⟨idlePair, []⟩ past m₁ ∧ c.Begins 0 m₁ ∧ c.Runs m₁ trace seen m ∧
      m.world.completedAt 0 = 2 ∧ c.Interrupted 0 (.raised "compute") m₁ trace seen m) ∧
    (∃ x, Retry.Reached .host patchyFive x ∧ x.caught = [.raised "infer", .raised "compute"] ∧
      Retry.Recovered 0 patchyFive x (.count 1) patchyMessages) ∧
    Inevitable (Retry.Next .host) (fun x => ∃ reply,
      x.machine.outcome? x.place = some (.ok reply) ∧
      Retry.Recovered 0 patchyFive x reply patchyMessages) (.first .host patchyFive) := by
  have created : World.create {} .empty = .ok idlePair := rfl
  obtain ⟨past, earlier⟩ := reaches_patchyFive
  have known : patchyFive.world.streamOf? .host = some 0 := rfl
  have free : patchyFive.world.executingAt 0 = false := rfl
  have sound : patchyFive.Sound past := by simpa using (Machine.Sound.init created).after earlier
  have resilient := resilient_of_reaches created earlier known
  have tame : Retry.Tame .host 0 patchyFive :=
    Retry.tame_of_prompt sound known free prompt_of_mem_patchyMessages
  refine ⟨past, created, earlier, resilient, ?_, ?_, resilient.inevitable free tame⟩
  · have path := Retry.path_ahead .host 38 (.first .host patchyFive)
    obtain ⟨before, shown, m₁, trace, seen, ongoing⟩ := Retry.Reached.ongoing path sound known free
    have known' := (ongoing.earlier.streamOf? .host).trans known
    exact ⟨_, _, seen, m₁, _, trace, earlier.trans ongoing.earlier, ongoing.begins, ongoing.run, rfl,
      (resilient_of_reaches created (earlier.trans ongoing.earlier) known').interrupted _ _ _ _ _
        ongoing.begins ongoing.run (Retry.ends_of_outcome? (v := .error (.raised "compute")) rfl)⟩
  · have path := Retry.path_ahead .host 60 (.first .host patchyFive)
    refine ⟨_, path, rfl, ?_⟩
    have recovered := resilient.recovered free _ (.count 1) path rfl
    rwa [tame.silent _ path, List.append_nil] at recovered

end StreamMachine
