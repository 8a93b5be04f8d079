import Mathlib.Data.List.Chain
import StreamMachine.Proofs.Stack
import StreamMachine.Proofs.Ledger

/-! The guard of a stream and the instructions in flight on it. Guards are counted against the
drains that hold them over all stacks of a machine, and drains against the instructions that run
right above them. -/
namespace StreamMachine

/-- A drain of a stream that has taken the guard and has not given it up. -/
def Frame.holds (s : Nat) : Frame → Bool
  | .drain i p _ => i = s ∧ (p = .take ∨ p = .execute ∨ p = .leave)
  | _ => false

/-- A drain of a stream in the middle of an instruction. -/
def Frame.executes (s : Nat) : Frame → Bool
  | .drain i p _ => i = s ∧ p = .execute
  | _ => false

/-- An instruction of a stream. -/
def Frame.runs (s : Nat) : Frame → Bool
  | .run i _ => i.stream = s
  | _ => false

/-- The stream that a thread drains right now, between two instructions. -/
def Thread.draining? (t : Thread) : Option Nat :=
  match t.frames with
  | .drain s _ _ :: _ => some s
  | _ => none

/-- Frames of a kind on all stacks. -/
def countFrames (p : Frame → Bool) (threads : List Thread) : Nat :=
  (threads.flatMap (·.frames)).countP p

namespace Machine

/-- Instructions of a stream that are in flight. -/
def inFlight (m : Machine) (s : Nat) : Nat := countFrames (Frame.runs s) m.threads

end Machine

/-- The start of an instruction of a stream, or its end, be it by return or by unwinding. -/
def Occurrence.turn? (s : Nat) : Occurrence → Option Bool
  | started i _ => if i = s then some true else none
  | completed i | abandoned i _ => if i = s then some false else none
  | _ => none

/-- Starts and ends of the instructions of a stream, in order; starts are `true`. -/
def turns (s : Nat) (seen : List Occurrence) : List Bool := seen.filterMap (·.turn? s)

@[simp] theorem turns_append (s : Nat) (xs ys : List Occurrence) :
    turns s (xs ++ ys) = turns s xs ++ turns s ys := List.filterMap_append

theorem turns_calm {seen : List Occurrence} (h : ∀ o ∈ seen, o.Calm) (s : Nat) :
    turns s seen = [] := by
  simp only [turns, List.filterMap_eq_nil_iff]
  intro o ho
  have := h o ho
  cases o <;> first | rfl | exact this.elim

namespace Frame

variable {f : Frame}

theorem Calm.holds (hf : f.Calm) (s : Nat) : f.holds s = false := by
  cases f <;> first | rfl | exact hf.elim

theorem Calm.executes (hf : f.Calm) (s : Nat) : f.executes s = false := by
  cases f <;> first | rfl | exact hf.elim

theorem Calm.runs (hf : f.Calm) (s : Nat) : f.runs s = false := by
  cases f <;> first | rfl | exact hf.elim

end Frame

section Count

variable {threads : List Thread} {i : Nat} {t : Thread}

theorem countFrames_cons (p : Frame → Bool) (t : Thread) (threads : List Thread) :
    countFrames p (t :: threads) = t.frames.countP p + countFrames p threads := by
  simp [countFrames]

theorem countFrames_append (p : Frame → Bool) (xs ys : List Thread) :
    countFrames p (xs ++ ys) = countFrames p xs + countFrames p ys := by
  simp [countFrames]

theorem countFrames_set (found : threads[i]? = some t) (p : Frame → Bool) (x : Thread) :
    countFrames p (threads.set i x) + t.frames.countP p =
      countFrames p threads + x.frames.countP p := by
  induction threads generalizing i with
  | nil => cases found
  | cons y threads ih =>
    cases i with
    | zero =>
      cases found
      simp only [List.set_cons_zero, countFrames_cons]
      omega
    | succ i =>
      have := ih found
      simp only [List.set_cons_succ, countFrames_cons]
      omega

theorem countP_le_countFrames (found : threads[i]? = some t) (p : Frame → Bool) :
    t.frames.countP p ≤ countFrames p threads := by
  have := countFrames_set found p ⟨[], .run, []⟩
  simp only [List.countP_nil] at this
  omega

theorem countFrames_le {p q : Frame → Bool}
    (h : ∀ t ∈ threads, t.frames.countP p ≤ t.frames.countP q) :
    countFrames p threads ≤ countFrames q threads := by
  induction threads with
  | nil => exact le_rfl
  | cons t threads ih =>
    have head := h t List.mem_cons_self
    have tail := ih fun x hx => h x (List.mem_cons_of_mem t hx)
    simp only [countFrames_cons]
    omega

theorem countFrames_workers {p : Frame → Bool} (hp : ∀ s, p (.drain s .enter 0) = false)
    (h : ∀ x ∈ threads, ∃ s, x = .worker s) : countFrames p threads = 0 := by
  induction threads with
  | nil => rfl
  | cons t threads ih =>
    obtain ⟨s, rfl⟩ := h t List.mem_cons_self
    rw [countFrames_cons, ih fun x hx => h x (List.mem_cons_of_mem _ hx)]
    simp [Thread.worker, hp]

end Count

/-- On a grounded stack the drains that hold a guard, those that execute, and the instructions of a
stream are as many. -/
theorem Grounded.counts {place : Nat → StreamCategory} {frames : List Frame} {spans : List Span}
    (h : Grounded place frames spans) (s : Nat) :
    frames.countP (Frame.holds s) = frames.countP (Frame.runs s) ∧
      frames.countP (Frame.executes s) = frames.countP (Frame.runs s) := by
  induction h with
  | nil => exact ⟨rfl, rfl⟩
  | calm hf below ih => simpa [hf.holds s, hf.executes s, hf.runs s] using ih
  | helper below ih => simpa [Frame.holds, Frame.executes, Frame.runs] using ih
  | run below ih =>
    simp only [List.countP_cons, Frame.holds, Frame.executes, Frame.runs]
    simp only [ih.1, ih.2]
    constructor <;> simp

namespace Thread.Shaped

variable {place : Nat → StreamCategory} {t : Thread}

theorem runs_le_holds (h : t.Shaped place) (s : Nat) :
    t.frames.countP (Frame.runs s) ≤ t.frames.countP (Frame.holds s) := by
  cases h with
  | host stack => rw [(stack.counts s).1]
  | loop i e p outer frames run idle stack | ending i e span outer spans frames control _ stack =>
    rw [frames, List.countP_cons, List.countP_cons, (stack.counts s).1]
    simp [Frame.runs]

/-- But for a stream that it drains right now, a thread holds guards for instructions only. -/
theorem holds_eq_runs (h : t.Shaped place) {s : Nat} (other : t.draining? ≠ some s) :
    t.frames.countP (Frame.holds s) = t.frames.countP (Frame.runs s) := by
  cases h with
  | host stack => exact (stack.counts s).1
  | loop i e p outer frames run idle stack | ending i e span outer spans frames control _ stack =>
    have hi : i ≠ s := by simpa [draining?, frames] using other
    rw [frames, List.countP_cons, List.countP_cons, (stack.counts s).1]
    simp [Frame.holds, Frame.runs, hi]

end Thread.Shaped

theorem Deed.Calm.ne_setExecuting {d : Deed} (hd : d.Calm) (s : Nat) (b : Bool) :
    d ≠ .setExecuting s b := by
  rintro rfl
  exact hd

def Thread.held (t : Thread) (s : Nat) : Nat := t.frames.countP (Frame.holds s)

def Thread.executed (t : Thread) (s : Nat) : Nat := t.frames.countP (Frame.executes s)

/-- What a turn can mean for the guard of a stream and for the instruction behind it. -/
inductive Shift (w : World) (t : Thread) (r : Step) (s : Nat) : Prop
  | none (guard : (w.after r.deed).executingAt s = w.executingAt s)
      (held : r.thread.held s = t.held s) (executed : r.thread.executed s = t.executed s)
      (turns : turns s r.seen = [])
  | seize (free : w.executingAt s = false) (guard : (w.after r.deed).executingAt s = true)
      (held : r.thread.held s = t.held s + 1) (executed : r.thread.executed s = t.executed s)
      (turns : turns s r.seen = [])
  | start (guard : (w.after r.deed).executingAt s = w.executingAt s)
      (held : r.thread.held s = t.held s) (executed : r.thread.executed s = t.executed s + 1)
      (idle : t.executed s < t.held s) (turns : turns s r.seen = [true])
  | complete (guard : (w.after r.deed).executingAt s = w.executingAt s)
      (held : r.thread.held s = t.held s) (executed : r.thread.executed s + 1 = t.executed s)
      (turns : turns s r.seen = [false])
  | yield (guard : (w.after r.deed).executingAt s = false)
      (held : r.thread.held s + 1 = t.held s) (executed : r.thread.executed s = t.executed s)
      (turns : turns s r.seen = [])
  | abandon (guard : (w.after r.deed).executingAt s = false)
      (held : r.thread.held s + 1 = t.held s) (executed : r.thread.executed s + 1 = t.executed s)
      (turns : turns s r.seen = [false])

namespace Shift

variable {w : World} {t : Thread} {r : Step} {s : Nat}

/-- Stacks that differ in frames without the guard. -/
theorem of_same (xs ys : List Frame) {outer : List Frame} (frames : t.frames = xs ++ outer)
    (stack : r.thread.frames = ys ++ outer) (hx : ∀ f ∈ xs, f.holds s = false)
    (hy : ∀ f ∈ ys, f.holds s = false)
    (guard : (w.after r.deed).executingAt s = w.executingAt s) (turns : turns s r.seen = []) :
    Shift w t r s := by
  have free {zs : List Frame} (hz : ∀ f ∈ zs, f.holds s = false) :
      zs.countP (Frame.holds s) = 0 ∧ zs.countP (Frame.executes s) = 0 := by
    constructor
    · rw [List.countP_eq_zero]
      intro f hf
      simp [hz f hf]
    · rw [List.countP_eq_zero]
      intro f hf
      have := hz f hf
      cases f <;> simp_all [Frame.holds, Frame.executes]
  refine .none guard ?_ ?_ turns
  · simp [Thread.held, frames, stack, (free hx).1, (free hy).1]
  · simp [Thread.executed, frames, stack, (free hx).2, (free hy).2]

end Shift

namespace Turn

variable {w : World} {t : Thread} {r : Step}

theorem shift (h : Turn w t r) (ht : t.Shaped w.categoryAt) (s : Nat) : Shift w t r s := by
  have calm_holds {frames : List Frame} (above : ∀ f ∈ frames, f.Calm) :
      ∀ f ∈ frames, f.holds s = false := fun f hf => (above f hf).holds s
  cases h with
  | calm frame outer added frames calm deed stack above _ _ seen =>
    exact .of_same [frame] added frames stack (by simpa using calm.holds s) (calm_holds above)
      (World.executingAt_after deed.ne_setExecuting s) (turns_calm seen s)
  | push frame outer i m reply n frames calm =>
    exact .of_same [frame] [] frames rfl (by simpa using calm.holds s) (by simp)
      (World.executingAt_after (by simp) s) rfl
  | drain frame outer added i frames calm above =>
    exact .of_same [frame] (.drain i .enter 0 :: added) frames rfl
      (by simpa using calm.holds s) (by simpa [Frame.holds] using calm_holds above) rfl rfl
  | enlist frame outer c frames calm =>
    exact .of_same [frame] [.command c, .helper t.spans, .catching] frames rfl
      (by simpa using calm.holds s) (by simp [Frame.holds]) rfl rfl
  | dismiss x saved outer frames stack =>
    exact .of_same [.helper saved] [] frames stack (by simp [Frame.holds]) (by simp)
      rfl rfl
  | proceed i i' phases phases' outer added seen frames _ _ above calm =>
    exact .of_same [.run i phases] (added ++ [.run i' phases']) frames
      (by simp [Thread.goto]) (by simp [Frame.holds])
      (by simpa [or_imp, forall_and, Frame.holds] using calm_holds above) rfl (turns_calm calm s)
  | finish x i phases outer seen frames stack _ _ calm =>
    exact .of_same [.run i phases] [] frames stack (by simp [Frame.holds]) (by simp)
      rfl (turns_calm calm s)
  | busy i e outer frames =>
    exact .of_same [.drain i .enter e] [] frames rfl (by simp [Frame.holds]) (by simp)
      rfl rfl
  | rest i e outer frames =>
    exact .of_same [.drain i .recheck e] [] frames rfl (by simp [Frame.holds])
      (by simp) rfl rfl
  | again i e outer frames =>
    exact .of_same [.drain i .recheck e] [.drain i .enter e] frames rfl
      (by simp [Frame.holds]) (by simp [Frame.holds]) rfl rfl
  | seize i e outer frames run free =>
    by_cases hi : i = s
    · subst hi
      have guard := World.executingAt_setExecuting w i i true
      rw [if_pos rfl] at guard
      refine .seize ?_ ?_ ?_ ?_ rfl
      · cases h : w.streams[i]? <;> simp_all [World.executingAt]
      · cases h : w.streams[i]? <;> simp_all
      all_goals simp [Thread.held, Thread.executed, frames, Thread.goto, Frame.holds, Frame.executes]
    · exact .of_same [.drain i .enter e] [.drain i .take e] frames rfl (by simp [Frame.holds])
        (by simp [Frame.holds, hi]) (by rw [World.executingAt_setExecuting, if_neg hi]) rfl
  | start i e p outer m queue frames run point =>
    by_cases hi : i = s
    · subst hi
      obtain ⟨idle, below⟩ := ht.below_loop frames run
      obtain rfl := point.resolve_right idle
      have counts := below.counts i
      refine .start (World.executingAt_after (by simp) i) ?_ ?_ ?_ ?_
      all_goals simp [Thread.held, Thread.executed, frames, Thread.goto, Frame.holds, Frame.executes,
        turns, Occurrence.turn?]
      omega
    · exact .of_same [.drain i p e] [.run ⟨m, i, .created⟩ [.infer, .compute], .drain i .execute e]
        frames rfl (by simp [Frame.holds, hi]) (by simp [Frame.holds, hi])
        (World.executingAt_after (by simp) s) (by simp [turns, Occurrence.turn?, hi])
  | dry i e p outer frames run point =>
    by_cases hi : i = s
    · subst hi
      obtain ⟨idle, -⟩ := ht.below_loop frames run
      obtain rfl := point.resolve_right idle
      refine .none rfl ?_ ?_ rfl
      all_goals simp [Thread.held, Thread.executed, frames, Thread.goto, Frame.holds, Frame.executes]
    · exact .of_same [.drain i p e] [.drain i .leave e] frames rfl (by simp [Frame.holds, hi])
        (by simp [Frame.holds, hi]) rfl rfl
  | yield i e outer frames =>
    by_cases hi : i = s
    · subst hi
      refine .yield ?_ ?_ ?_ rfl
      · rw [World.executingAt_setExecuting, if_pos rfl]
        cases w.streams[i]? <;> rfl
      all_goals simp [Thread.held, Thread.executed, frames, Thread.goto, Frame.holds, Frame.executes]
    · exact .of_same [.drain i .leave e] [.drain i .recheck e] frames rfl (by simp [Frame.holds, hi])
        (by simp [Frame.holds]) (by rw [World.executingAt_setExecuting, if_neg hi]) rfl
  | complete i e p outer reply frames control =>
    by_cases hi : i = s
    · subst hi
      obtain ⟨rfl, -⟩ := ht.below_ending frames (by simp [control])
      refine .complete (World.executingAt_after (by simp) i) ?_ ?_ ?_
      all_goals simp [Thread.held, Thread.executed, frames, Thread.goto, Frame.holds, Frame.executes,
        turns, Occurrence.turn?]
    · exact .of_same [.drain i p e] [.drain i .take (e + 1)] frames rfl (by simp [Frame.holds, hi])
        (by simp [Frame.holds, hi]) (World.executingAt_after (by simp) s)
        (by simp [turns, Occurrence.turn?, hi])
  | abandon i e p outer panic frames control =>
    by_cases hi : i = s
    · subst hi
      obtain ⟨rfl, -⟩ := ht.below_ending frames (by simp [control])
      refine .abandon ?_ ?_ ?_ ?_
      · rw [World.executingAt_setExecuting, if_pos rfl]
        cases w.streams[i]? <;> rfl
      all_goals simp [Thread.held, Thread.executed, frames, Thread.fail, Thread.leaveSpan,
        Frame.holds, Frame.executes, turns, Occurrence.turn?]
    · exact .of_same [.drain i p e] [] frames rfl (by simp [Frame.holds, hi]) (by simp)
        (by rw [World.executingAt_setExecuting, if_neg hi]) (by simp [turns, Occurrence.turn?, hi])

end Turn

theorem Turn.spawned {w : World} {t : Thread} {r : Step} (h : Turn w t r) :
    ∀ x ∈ r.spawned, ∃ s, x = .worker s := by
  cases h with
  | calm _ _ _ _ _ _ _ _ _ spawned => exact spawned
  | _ => simp

theorem executed_le_held (t : Thread) (s : Nat) : t.executed s ≤ t.held s := by
  refine List.countP_mono_left fun f _ hf => ?_
  cases f <;> simp_all [Frame.executes, Frame.holds]

theorem isChain_turn {l : List Bool} {b : Bool} (h : (false :: l).IsChain (· ≠ ·))
    (hb : l.getLast?.getD false = !b) : (false :: (l ++ [b])).IsChain (· ≠ ·) := by
  rw [← List.cons_append, List.isChain_append]
  refine ⟨h, by simp, ?_⟩
  simp [List.getLast?_cons, hb]

namespace Machine

/-- Every guard that is taken is held by one drain, and instructions start and end in turns. -/
structure Guarded (seen : List Occurrence) (m : Machine) : Prop where
  shaped : ∀ t ∈ m.threads, t.Shaped m.world.categoryAt
  held : ∀ s, countFrames (Frame.holds s) m.threads = (m.world.executingAt s).toNat
  turns : ∀ s, (false :: turns s seen).IsChain (· ≠ ·)
  last : ∀ s, countFrames (Frame.executes s) m.threads =
    ((StreamMachine.turns s seen).getLast?.getD false).toNat

namespace Guarded

variable {m : Machine} {seen : List Occurrence} {i : Nat} {t : Thread}

theorem init (w : World) (free : ∀ s, w.executingAt s = false) : Guarded [] ⟨w, []⟩ where
  shaped := by simp
  held s := by simp [free, countFrames]
  turns s := by simp [StreamMachine.turns]
  last s := by simp [StreamMachine.turns, countFrames]

/-- Away from one thread, too, no more drains execute than hold the guard. -/
theorem executed_le_held_rest (found : m.threads[i]? = some t) (s : Nat) :
    countFrames (Frame.executes s) m.threads + t.held s ≤
      countFrames (Frame.holds s) m.threads + t.executed s := by
  have executes := countFrames_set found (Frame.executes s) ⟨[], .run, []⟩
  have holds := countFrames_set found (Frame.holds s) ⟨[], .run, []⟩
  have le : countFrames (Frame.executes s) (m.threads.set i ⟨[], .run, []⟩) ≤
      countFrames (Frame.holds s) (m.threads.set i ⟨[], .run, []⟩) :=
    countFrames_le fun x _ => executed_le_held x s
  simp only [List.countP_nil] at executes holds
  change _ + t.executed s = _ at executes
  change _ + t.held s = _ at holds
  omega

theorem stepped (h : m.Guarded seen) {r : Step}
    (found : m.threads[i]? = some t) (turn : Turn m.world t r) :
    Guarded (seen ++ r.seen) (m.stepped i r) := by
  have ht := h.shaped t (List.mem_of_getElem? found)
  have place : (m.world.after r.deed).categoryAt = m.world.categoryAt :=
    funext (m.world.categoryAt_after r.deed)
  have counts (p : Frame → Bool) (hp : ∀ s, p (.drain s .enter 0) = false) :
      countFrames p (m.stepped i r).threads + t.frames.countP p =
        countFrames p m.threads + r.thread.frames.countP p := by
    rw [Machine.stepped, countFrames_append, countFrames_workers hp turn.spawned]
    exact countFrames_set found p r.thread
  -- An instruction starts on a drain that holds the guard with none in flight, and ends in one that
  -- has it in flight.
  have alternate (s : Nat) : (false :: StreamMachine.turns s (seen ++ r.seen)).IsChain (· ≠ ·) ∧
      countFrames (Frame.executes s) (m.stepped i r).threads =
        ((StreamMachine.turns s (seen ++ r.seen)).getLast?.getD false).toNat := by
    have executed : _ + t.executed s = _ + r.thread.executed s :=
      counts (Frame.executes s) (by simp [Frame.executes])
    have last := h.last s
    have before : t.executed s ≤ _ := countP_le_countFrames found (Frame.executes s)
    rw [turns_append]
    cases turn.shift ht s with
    | none _ _ same turns | seize _ _ _ same turns | yield _ _ same turns =>
      rw [turns, List.append_nil]
      exact ⟨h.turns s, by omega⟩
    | start guard held more idle turns =>
      have rest := executed_le_held_rest found s
      have one := h.held s
      have := (m.world.executingAt s).toNat_le
      have none : (StreamMachine.turns s seen).getLast?.getD false = false := by
        rw [← Bool.toNat_eq_zero]
        omega
      rw [turns]
      refine ⟨isChain_turn (h.turns s) none, ?_⟩
      simp only [none, Bool.toNat_false, List.getLast?_append, List.getLast?_singleton,
        Option.some_or, Option.getD_some, Bool.toNat_true] at *
      omega
    | complete _ _ less turns | abandon _ _ less turns =>
      have := ((StreamMachine.turns s seen).getLast?.getD false).toNat_le
      have some : (StreamMachine.turns s seen).getLast?.getD false = true := by
        rw [← Bool.toNat_eq_one]
        omega
      rw [turns]
      refine ⟨isChain_turn (h.turns s) some, ?_⟩
      simp only [some, Bool.toNat_false, List.getLast?_append, List.getLast?_singleton,
        Option.some_or, Option.getD_some, Bool.toNat_true] at *
      omega
  constructor
  · intro x hx
    rw [Machine.stepped, place]
    obtain hx | hx := List.mem_append.1 hx
    · obtain hx | rfl := List.mem_or_eq_of_mem_set hx
      · exact h.shaped x hx
      · exact turn.shaped ht
    · obtain ⟨s, rfl⟩ := turn.spawned x hx
      exact .worker s
  · intro s
    have held : _ + t.held s = _ + r.thread.held s := counts (Frame.holds s) (by simp [Frame.holds])
    have before := h.held s
    have one := countP_le_countFrames found (Frame.holds s)
    change t.held s ≤ _ at one
    change _ = ((m.world.after r.deed).executingAt s).toNat
    cases turn.shift ht s with
    | none guard => rw [guard]; omega
    | seize free guard => simp only [free, guard, Bool.toNat_true, Bool.toNat_false] at *; omega
    | start guard | complete guard => rw [guard]; omega
    | yield guard | abandon guard =>
      have := (m.world.executingAt s).toNat_le
      simp only [guard, Bool.toNat_false]
      omega
  · exact fun s => (alternate s).1
  · exact fun s => (alternate s).2

/-- What neither adds nor takes a drain in progress, and leaves the guards alone. -/
theorem of_same {m' : Machine} {new : List Occurrence} (h : m.Guarded seen)
    (shaped : ∀ t ∈ m'.threads, t.Shaped m'.world.categoryAt)
    (guard : ∀ s, m'.world.executingAt s = m.world.executingAt s)
    (held : ∀ s, countFrames (Frame.holds s) m'.threads = countFrames (Frame.holds s) m.threads)
    (executed : ∀ s, countFrames (Frame.executes s) m'.threads =
      countFrames (Frame.executes s) m.threads)
    (turns : ∀ s, StreamMachine.turns s new = []) : m'.Guarded (seen ++ new) where
  shaped := shaped
  held s := by rw [held, guard, h.held]
  turns s := by rw [turns_append, turns, List.append_nil]; exact h.turns s
  last s := by rw [turns_append, turns, List.append_nil, executed]; exact h.last s

end Guarded

theorem Moves.guarded {m m' : Machine} {seen new : List Occurrence} (move : m.Moves new m')
    (h : m.Guarded seen) : m'.Guarded (seen ++ new) := by
  cases move with
  | step i step =>
    obtain ⟨t, r, found, turn, rfl, rfl⟩ := turn_of_stepAt? step
    exact h.stepped found turn
  | expire i step =>
    obtain ⟨t, r, found, turn, rfl, rfl⟩ := turn_of_expireAt? step
    exact h.stepped found turn
  | call command =>
    refine h.of_same ?_ (fun _ => rfl) (fun s => ?_) (fun s => ?_) (fun _ => rfl)
    · intro t ht
      obtain ht | ht := List.mem_append.1 ht
      · exact h.shaped t ht
      · obtain rfl := List.mem_singleton.1 ht
        exact .ofCommand command
    all_goals
      rw [countFrames_append]
      simp [countFrames, Thread.ofCommand, Frame.holds, Frame.executes]
  | offer s message known =>
    refine h.of_same ?_ (World.executingAt_after (by simp)) (fun _ => rfl) (fun _ => rfl)
      (fun _ => rfl)
    intro t ht
    rw [funext (m.world.categoryAt_after _)]
    exact h.shaped t ht
  | revise i t t' found revised =>
    have same (p : Frame → Bool) (hp : ∀ f : Frame, f.Calm → p f = false) :
        countFrames p (m.threads.set i t') = countFrames p m.threads := by
      obtain ⟨f, g, outer, hf, hg, frames, frames', -⟩ := revised.calm
      have := countFrames_set found p t'
      simp only [frames, frames', List.countP_cons, hp f hf, hp g hg] at this
      omega
    refine h.of_same ?_ (fun _ => rfl) (fun s => same _ fun f hf => hf.holds s)
      (fun s => same _ fun f hf => hf.executes s) (fun _ => rfl)
    intro x hx
    obtain hx | rfl := List.mem_or_eq_of_mem_set hx
    · exact h.shaped x hx
    · exact revised.shaped (h.shaped t (List.mem_of_getElem? found))

theorem Reaches.guarded {m₀ m : Machine} {seen : List Occurrence} (run : m₀.Reaches seen m)
    (h : m₀.Guarded []) : m.Guarded seen := by
  induction run with
  | refl => exact h
  | move _ last ih => exact last.guarded ih

/-- What holds of the guards and of the instructions in flight at every point of a run. -/
structure Disciplined (seen : List Occurrence) (m : Machine) : Prop where
  /-- A stream has at most one instruction in flight. -/
  one : ∀ s, m.inFlight s ≤ 1
  /-- Whenever no drain of a stream stands between two instructions, as when only behaviors and
  callbacks run, its guard is taken just if it has an instruction in flight. -/
  executing : ∀ s, (∀ t ∈ m.threads, t.draining? ≠ some s) →
    (m.world.executingAt s = true ↔ m.inFlight s = 1)
  /-- Asked whether the stream of a category executes, the machine tells its guard. -/
  asked : ∀ category, m.world.query (.isExecuting category) =
    .ok ((m.world.streamOf? category).elim .nothing fun s => .flag (m.world.executingAt s))
  /-- An instruction starts after the one before it has completed or unwound. -/
  turns : ∀ s, (false :: turns s seen).IsChain (· ≠ ·)
  /-- A drain that finds the guard taken replies with what it has run so far, at first none. -/
  busy : ∀ i t s e outer, m.threads[i]? = some t → t.frames = .drain s .enter e :: outer →
    t.control = .run → m.world.executingAt s = true →
    m.stepAt? i = some (⟨m.world, m.threads.set i (t.give outer (.count e))⟩, [.drained s e])
  /-- So to run the pending instructions of a stream that executes is to get 0 and change nothing. -/
  again : ∀ i t category s outer, m.threads[i]? = some t →
    t.frames = .command (.runPending category) :: outer → t.control = .run →
    m.world.streamOf? category = some s → m.world.executingAt s = true →
    ∃ m₁, m.stepAt? i = some (m₁, []) ∧ m₁.world = m.world ∧
      m₁.stepAt? i = some (⟨m.world, m.threads.set i (t.give outer (.count 0))⟩, [.drained s 0])
  /-- Once every call has returned or unwound, all guards are free. -/
  free : (∀ t ∈ m.threads, t.frames = []) → ∀ stream ∈ m.world.streams, stream.executing = false

theorem stepAt?_busy {m : Machine} {i s e : Nat} {t : Thread} {outer : List Frame}
    (found : m.threads[i]? = some t) (frames : t.frames = .drain s .enter e :: outer)
    (run : t.control = .run) (held : m.world.executingAt s = true) :
    m.stepAt? i = some (⟨m.world, m.threads.set i (t.give outer (.count e))⟩, [.drained s e]) := by
  have busy : (m.world.streams[s]?).elim true (·.executing) = true := by
    cases h : m.world.streams[s]? <;> simp_all [World.executingAt]
  simp [stepAt?, found, Thread.step?, frames, run, Thread.stepFrame?, Thread.stepDrain, busy]

/-- Once every call has ended, no guard is taken. -/
theorem Guarded.free {m : Machine} {seen : List Occurrence} (h : m.Guarded seen)
    (ended : ∀ t ∈ m.threads, t.frames = []) (s : Nat) : m.world.executingAt s = false := by
  have none : countFrames (Frame.holds s) m.threads = 0 := by
    simp only [countFrames, List.countP_eq_zero, List.mem_flatMap]
    rintro f ⟨t, ht, hf⟩
    simp [ended t ht] at hf
  have held := h.held s
  rw [none] at held
  simpa using held.symm

theorem Guarded.disciplined {m : Machine} {seen : List Occurrence} (h : m.Guarded seen) :
    m.Disciplined seen where
  one s := by
    have le := countFrames_le fun t ht => (h.shaped t ht).runs_le_holds s
    have held := h.held s
    have := (m.world.executingAt s).toNat_le
    rw [inFlight]
    omega
  executing s other := by
    have le := countFrames_le fun t ht => ((h.shaped t ht).holds_eq_runs (other t ht)).le
    have ge := countFrames_le fun t ht => ((h.shaped t ht).holds_eq_runs (other t ht)).ge
    rw [inFlight, ← le.antisymm ge, h.held, Bool.toNat_eq_one]
  asked := m.world.query_isExecuting
  turns := h.turns
  busy _ _ _ _ _ found frames run held := stepAt?_busy found frames run held
  again i t category s outer found frames run known held := by
    have inside : i < m.threads.length := (List.getElem?_eq_some_iff.1 found).1
    have first : m.stepAt? i = some (⟨m.world, m.threads.set i (t.goto (.drain s .enter 0 :: outer))⟩,
        []) := by
      simp [stepAt?, found, Thread.step?, frames, run, Thread.stepFrame?, Thread.stepCommand?, known]
    have second := stepAt?_busy (t := t.goto (.drain s .enter 0 :: outer))
      (m := ⟨m.world, m.threads.set i (t.goto (.drain s .enter 0 :: outer))⟩)
      (List.getElem?_set_self inside) rfl rfl held
    rw [List.set_set] at second
    exact ⟨_, first, rfl, second⟩
  free ended := by
    intro stream mem
    obtain ⟨s, found⟩ := List.getElem?_of_mem mem
    simpa [World.executingAt, found] using h.free ended s

end Machine

theorem World.executingAt_create {config : MachineConfig} {registry : Registry} {w : World}
    (created : World.create config registry = .ok w) (s : Nat) : w.executingAt s = false := by
  simp only [World.create] at created
  split at created <;> cases created
  simp only [World.executingAt, List.getElem?_map]
  cases config.streams[s]? <;> rfl

/-- A machine from its creation on. One thread is the case in which all commands come one after
another; nothing here depends on that. -/
theorem disciplined_of_reaches {config : MachineConfig} {registry : Registry} {w : World}
    (created : World.create config registry = .ok w) {m : Machine} {seen : List Occurrence}
    (run : Machine.Reaches ⟨w, []⟩ seen m) : m.Disciplined seen :=
  (run.guarded (.init w (World.executingAt_create created))).disciplined

/-- In the middle of the first instruction the schedule that it calls for has the other stream
execute. -/
theorem disciplined_in_nested_schedule : ∃ seen,
    World.create {} .empty = .ok idlePair ∧
    Machine.Reaches ⟨idlePair, []⟩ seen (offeredTriple.run 20).1 ∧
    ((offeredTriple.run 20).1.world.streams.map (·.executing) = [true, true]) ∧
    (offeredTriple.run 20).1.Disciplined seen := by
  obtain ⟨seen, offered⟩ := reaches_offeredTriple
  have created : World.create {} .empty = .ok idlePair := rfl
  exact ⟨_, created, offered.goOn 20, rfl, disciplined_of_reaches created (offered.goOn 20)⟩

end StreamMachine
