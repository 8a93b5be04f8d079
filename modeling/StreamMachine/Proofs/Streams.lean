import StreamMachine.Machine.Run

/-! How deeds change the streams: the queue and the guard at each position. -/
namespace StreamMachine

/-- Deeds that leave the streams alone. -/
def Deed.Calm : Deed → Prop
  | .push .. | .pop _ | .setExecuting .. | .complete _ => False
  | _ => True

namespace World

def queueAt (w : World) (s : Nat) : List Message := (w.streams[s]?).elim [] (·.queue)

def executingAt (w : World) (s : Nat) : Bool := (w.streams[s]?).elim false (·.executing)

def completedAt (w : World) (s : Nat) : Nat := (w.streams[s]?).elim 0 (·.completed)

@[simp] theorem after_nothing (w : World) : w.after .nothing = w := rfl

theorem streams_after {w : World} {d : Deed} (hd : d.Calm) : (w.after d).streams = w.streams := by
  cases d <;> first | rfl | exact hd.elim

theorem getElem?_updateStream (w : World) (i s : Nat) (f : Stream → Stream) :
    (w.updateStream i f).streams[s]? = if i = s then (w.streams[s]?).map f else w.streams[s]? := by
  rw [updateStream, List.getElem?_modify]
  split <;> simp

theorem queueAt_updateStream (w : World) (i s : Nat) (f : Stream → Stream) :
    (w.updateStream i f).queueAt s =
      if i = s then (w.streams[s]?).elim [] fun st => (f st).queue else w.queueAt s := by
  rw [queueAt, getElem?_updateStream]
  split
  · cases w.streams[s]? <;> rfl
  · rfl

theorem lt_of_streamOf? {w : World} {category : StreamCategory} {s : Nat}
    (h : w.streamOf? category = some s) : s < w.streams.length :=
  (List.findIdx?_eq_some_iff_getElem.1 h).1

theorem query_isExecuting (w : World) (category : StreamCategory) :
    w.query (.isExecuting category) =
      .ok ((w.streamOf? category).elim .nothing fun s => .flag (w.executingAt s)) := by
  cases found : w.streamOf? category with
  | none =>
    rw [streamOf?] at found
    rw [query, List.find?_eq_bind_findIdx?_getElem?, found]
    rfl
  | some s =>
    have there := List.getElem?_eq_getElem (lt_of_streamOf? found)
    rw [streamOf?] at found
    rw [query, List.find?_eq_bind_findIdx?_getElem?, found, Option.bind_some, Option.elim_some,
      executingAt, there]
    rfl

theorem queueAt_after {w : World} {d : Deed} (hd : d.Calm) (s : Nat) :
    (w.after d).queueAt s = w.queueAt s := by
  simp only [queueAt, World.streams_after hd]

theorem queueAt_push {w : World} {i : Nat} (known : i < w.streams.length) (m : Message) (s : Nat) :
    (w.after (.push i m)).queueAt s = w.queueAt s ++ if i = s then [m] else [] := by
  rw [after, queueAt_updateStream]
  split
  next h =>
    subst h
    rw [queueAt, List.getElem?_eq_getElem known]
    rfl
  · simp

theorem queueAt_pop (w : World) (i s : Nat) :
    (w.after (.pop i)).queueAt s = if i = s then (w.queueAt s).tail else w.queueAt s := by
  rw [after, queueAt_updateStream]
  split
  · rw [queueAt]
    cases w.streams[s]? <;> rfl
  · rfl

theorem queueAt_of_same {w : World} {i : Nat} {f : Stream → Stream}
    (hf : ∀ st, (f st).queue = st.queue) (s : Nat) :
    (w.updateStream i f).queueAt s = w.queueAt s := by
  rw [queueAt_updateStream]
  split
  · rw [queueAt]
    cases w.streams[s]? <;> simp [hf]
  · rfl

@[simp] theorem queueAt_setExecuting (w : World) (i s : Nat) (b : Bool) :
    (w.after (.setExecuting i b)).queueAt s = w.queueAt s :=
  queueAt_of_same (f := (·.setExecuting b)) (fun _ => rfl) s

@[simp] theorem queueAt_complete (w : World) (i s : Nat) :
    (w.after (.complete i)).queueAt s = w.queueAt s :=
  queueAt_of_same (f := (·.complete)) (fun _ => rfl) s

theorem executingAt_of_same {w : World} {i : Nat} {f : Stream → Stream}
    (hf : ∀ st, (f st).executing = st.executing) (s : Nat) :
    (w.updateStream i f).executingAt s = w.executingAt s := by
  rw [executingAt, getElem?_updateStream, executingAt]
  split
  · cases w.streams[s]? <;> simp [hf]
  · rfl

theorem executingAt_after {w : World} {d : Deed} (hd : ∀ s b, d ≠ .setExecuting s b) (s : Nat) :
    (w.after d).executingAt s = w.executingAt s := by
  cases d with
  | setExecuting i b => exact (hd i b rfl).elim
  | push | pop | complete => exact executingAt_of_same (by intro st; rfl) s
  | _ => rfl

theorem executingAt_setExecuting (w : World) (i s : Nat) (b : Bool) :
    (w.after (.setExecuting i b)).executingAt s =
      if i = s then (w.streams[s]?).elim false fun _ => b else w.executingAt s := by
  rw [after, executingAt, getElem?_updateStream]
  split
  · cases w.streams[s]? <;> rfl
  · rfl

theorem completedAt_after {w : World} {d : Deed} (hd : ∀ i, d ≠ .complete i) (s : Nat) :
    (w.after d).completedAt s = w.completedAt s := by
  have same {i : Nat} {f : Stream → Stream} (hf : ∀ st, (f st).completed = st.completed) :
      (w.updateStream i f).completedAt s = w.completedAt s := by
    rw [completedAt, getElem?_updateStream, completedAt]
    split
    · cases w.streams[s]? <;> simp [hf]
    · rfl
  cases d with
  | complete i => exact (hd i rfl).elim
  | push | pop | setExecuting => exact same (by intro st; rfl)
  | _ => rfl

theorem completedAt_complete {w : World} {i : Nat} (known : i < w.streams.length) (s : Nat) :
    (w.after (.complete i)).completedAt s = w.completedAt s + if i = s then 1 else 0 := by
  rw [after, completedAt, getElem?_updateStream, completedAt]
  split
  next h =>
    subst h
    rw [List.getElem?_eq_getElem known]
    rfl
  · rfl

/-- Categories and devices of the streams; no deed changes them. -/
def profiles (w : World) : List (StreamCategory × UInt32) :=
  w.streams.map fun s => (s.category, s.device)

theorem profiles_after (w : World) (d : Deed) : (w.after d).profiles = w.profiles := by
  have same {i : Nat} {f : Stream → Stream}
      (hf : ∀ st, ((f st).category, (f st).device) = (st.category, st.device)) :
      (w.updateStream i f).profiles = w.profiles := by
    refine List.ext_getElem? fun s => ?_
    rw [profiles, profiles, List.getElem?_map, List.getElem?_map, getElem?_updateStream]
    split
    · cases w.streams[s]? <;> simp [hf]
    · rfl
  cases d with
  | push | pop | setExecuting | complete => exact same (by intro st; rfl)
  | _ => rfl

theorem categoryAt_eq (w : World) (s : Nat) :
    w.categoryAt s = (w.profiles[s]?).elim .host (·.1) := by
  rw [categoryAt, profiles, List.getElem?_map]
  cases w.streams[s]? <;> rfl

theorem deviceAt_eq (w : World) (s : Nat) : w.deviceAt s = (w.profiles[s]?).elim 0 (·.2) := by
  rw [deviceAt, profiles, List.getElem?_map]
  cases w.streams[s]? <;> rfl

theorem streamOf?_eq (w : World) (category : StreamCategory) :
    w.streamOf? category = w.profiles.findIdx? fun p => p.1 == category := by
  rw [streamOf?, profiles, List.findIdx?_map]
  rfl

theorem categoryAt_after (w : World) (d : Deed) (s : Nat) :
    (w.after d).categoryAt s = w.categoryAt s := by
  rw [categoryAt_eq, profiles_after, ← categoryAt_eq]

theorem streamOf?_after (w : World) (d : Deed) (category : StreamCategory) :
    (w.after d).streamOf? category = w.streamOf? category := by
  rw [streamOf?_eq, profiles_after, ← streamOf?_eq]

theorem length_streams_after (w : World) (d : Deed) :
    (w.after d).streams.length = w.streams.length := by
  simpa [profiles] using congrArg List.length (w.profiles_after d)

@[simp] theorem registry_after (w : World) (d : Deed) : (w.after d).registry = w.registry := by
  cases d <;> rfl

end World

end StreamMachine
