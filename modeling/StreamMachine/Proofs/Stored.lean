import StreamMachine.Proofs.Layout
import StreamMachine.Proofs.Reach
import StreamMachine.Proofs.Reference
import StreamMachine.Proofs.Share
import StreamMachine.Session.Blobs

/-! Blobs in the storages of a machine and on the shelf of a session. Whatever the threads do, a blob
got to its storage as it was constructed, and all that is done to it there is done in place, so that
it keeps its layout. -/
namespace StreamMachine

namespace Blob

/-- Some form that the blob has been constructed in. -/
def Made (blob : Blob) : Prop := ∃ shape dataType, blob.Stems shape dataType

/-- What becomes of a storage: the blob in it is changed in place, and a new one has been made. -/
def Kept (before after : Option Blob) : Prop :=
  match before with
  | some old => ∃ new, after = some new ∧ old.Becomes new
  | none => ∀ new, after = some new → new.Made

theorem Made.becomes {blob new : Blob} (h : blob.Made) (later : blob.Becomes new) : new.Made := by
  obtain ⟨shape, dataType, first, constructed, changes⟩ := h
  exact ⟨shape, dataType, first, constructed, changes.trans later⟩

namespace Kept

theorem refl (blob : Option Blob) : Kept blob blob := by
  cases blob with
  | none => exact fun _ h => nomatch h
  | some blob => exact ⟨blob, rfl, .refl⟩

theorem trans {a b c : Option Blob} (first : Kept a b) (second : Kept b c) : Kept a c := by
  cases a with
  | some old =>
    obtain ⟨mid, rfl, changes⟩ := first
    obtain ⟨new, rfl, more⟩ := second
    exact ⟨new, rfl, changes.trans more⟩
  | none =>
    cases b with
    | none => exact second
    | some mid =>
      obtain ⟨new, rfl, changes⟩ := second
      intro _ same
      cases same
      exact (first mid rfl).becomes changes

theorem made {after : Option Blob} (h : Kept none after) {blob : Blob} (found : after = some blob) :
    blob.Made :=
  h blob found

/-- A new storage with a blob in it. -/
theorem new {s s' : Store} {id : StorageId} {blob : Blob} (fresh : s.blob? id = none)
    (there : s'.cell? id = some ⟨blob, .free⟩) (made : blob.Made) :
    Kept (s.blob? id) (s'.blob? id) := by
  rw [fresh, Store.blob?, there]
  intro _ same
  cases same
  exact made

end Kept

end Blob

theorem BlobSource.made_of_make {source : BlobSource} {blob : Blob}
    (h : source.make = .ok (.ok blob)) : blob.Made := by
  cases source with
  | words shape words => exact ⟨shape, .f32, blob, .ofWords words rfl h, .refl⟩
  | zeros shape dataType => exact ⟨shape, dataType, blob, .tryZeros h, .refl⟩
  | filled shape dataType bytes =>
    rw [make, bind_ok] at h
    obtain ⟨made, zeroed, h⟩ := h
    cases made with
    | error error => cases h
    | ok first =>
      simp only [bind_ok] at h
      obtain ⟨_, filled, h⟩ := h
      cases h
      exact ⟨shape, dataType, first, .tryZeros zeroed, .single (.fill bytes filled)⟩

/-- Deeds that store what has been made, and change a stored blob in place. -/
def Deed.Lays (w : World) : Deed → Prop
  | .setBlob id blob => ∀ old, w.store.blob? id = some old → old.Becomes blob
  | .newBlob _ blob | .newStorage _ blob => blob.Made
  | _ => True

namespace World

variable {w : World} {d : Deed}

theorem made_of_made {source : BlobSource} {blob : Blob}
    (h : World.made source = .ok (.ok blob)) : blob.Made :=
  BlobSource.made_of_make (mapError_eq_ok h)

theorem Asks.lays (h : w.Asks d) : d.Lays w := by
  cases h with
  | newBlob _ made | newStorage _ made => exact made_of_made made
  | @write id words old blob found written =>
    intro other same
    obtain rfl : old = other := Option.some.inj (found.symm.trans same)
    exact .single (.writeWords words written)
  | nothing | newHandle | nameStorage | rebind | publish | withdraw => trivial

/-- No storage has the next turn of its origin. -/
theorem blob?_fresh (w : World) (origin : Origin) :
    w.store.blob? ⟨origin, (w.store.cells.made origin).length⟩ = none := by
  rw [Store.blob?, Store.cell?, Series.at?, List.getElem?_eq_none le_rfl, Option.map_none]

theorem blob?_updateCell (w : World) (id other : StorageId) (f : Cell → Cell) :
    (w.store.updateCell id f).blob? other =
      if other = id then (w.store.cell? other).map fun cell => (f cell).blob
      else w.store.blob? other := by
  rw [Store.blob?, cell?_updateCell]
  split
  · rw [Option.map_map]
    rfl
  · rfl

/-- Locks come and go without the blob. -/
theorem blob?_updateCell_of_lock (w : World) (id other : StorageId) {f : Cell → Cell}
    (same : ∀ cell, (f cell).blob = cell.blob) :
    (w.store.updateCell id f).blob? other = w.store.blob? other := by
  rw [blob?_updateCell]
  split
  · simp only [same, Store.blob?]
  · rfl

/-- The storages after a deed. -/
theorem kept_after (lays : d.Lays w) (id : StorageId) :
    Blob.Kept (w.store.blob? id) ((w.after d).store.blob? id) := by
  by_cases changed : .storage id ∈ d.changes w
  · cases d with
    | acquire mode target | release target =>
      have same (f : Lock → Lock) := w.blob?_updateCell_of_lock target id
        (f := fun cell => { cell with lock := f cell.lock }) fun _ => rfl
      exact same _ ▸ .refl _
    | setBlob target blob =>
      obtain rfl : id = target := Resource.storage.inj changed
      rw [after, withStore, Store.setBlob, blob?_updateCell, if_pos rfl]
      cases found : w.store.cell? id with
      | none =>
        rw [Store.blob?, found]
        exact .refl none
      | some cell =>
        have there : w.store.blob? id = some cell.blob := by rw [Store.blob?, found]; rfl
        rw [there]
        exact ⟨blob, rfl, lays _ there⟩
    | newBlob name blob =>
      obtain rfl : id = ⟨.blob name, w.blobsMade name⟩ := by simpa [Deed.changes] using changed
      have there : (w.after (.newBlob name blob)).store.cell? ⟨.blob name, w.blobsMade name⟩ =
          some ⟨blob, .free⟩ :=
        View.cell.inj ((w.view_newBlob name blob (.storage _)).trans (by simp))
      exact .new (w.blob?_fresh (.blob name)) there lays
    | newStorage name blob =>
      obtain rfl : id = ⟨.storage name, w.storagesMade name⟩ := by
        simpa [Deed.changes] using changed
      have there : (w.after (.newStorage name blob)).store.cell?
          ⟨.storage name, w.storagesMade name⟩ = some ⟨blob, .free⟩ :=
        View.cell.inj ((w.view_newStorage name blob (.storage _)).trans (by simp))
      exact .new (w.blob?_fresh (.storage name)) there lays
    | _ => simp [Deed.changes] at changed
  · have same : (w.after d).store.cell? id = w.store.cell? id :=
      View.cell.inj (view_after_of_notMem changed)
    rw [Store.blob?, Store.blob?, same]
    exact .refl _

end World

/-! The steps of a thread change the store in this way only. -/

namespace Deed

variable {w : World} {t : Thread} {outer : List Frame} {r : Step}

theorem lays_of_raise (w : World) (panic : Panic) : (t.raise outer panic).deed.Lays w := by
  cases panic <;> trivial

theorem lays_of_submit (w : World) (outcome : World.Submission) :
    (t.submit w outer outcome).deed.Lays w := by
  cases outcome <;> trivial

theorem lays_of_action {a : Accessor} {action : Action}
    (step : t.stepAction? w a action outer = some r) : r.deed.Lays w := by
  cases action with
  | access x =>
    simp only [Thread.stepAction?, Option.some.injEq] at step
    subst step
    split
    · exact lays_of_raise w _
    next blob found =>
      split
      next reply new done =>
        intro old same
        obtain rfl : blob = old := Option.some.inj (found.symm.trans same)
        exact .single (.access a w x reply done)
      · exact lays_of_raise w _
  | panic message =>
    cases step
    exact lays_of_raise w _
  | wait gate =>
    rw [Thread.stepAction?] at step
    split at step <;> cases step
    trivial
  | attempt | step | thread | signal =>
    cases step
    trivial

theorem lays_of_command {c : Command} {fresh : Nat}
    (step : t.stepCommand? w fresh c outer = some r) : r.deed.Lays w := by
  cases c with
  | store c =>
    simp only [Thread.stepCommand?] at step
    split at step <;> cases step
    · exact lays_of_raise w _
    next found => exact (World.asks_of_storeCommand? found).lays
  | query c =>
    simp only [Thread.stepCommand?, Option.some.injEq] at step
    subst step
    split
    · exact lays_of_raise w _
    · trivial
  | receive | receiveMessage =>
    simp only [Thread.stepCommand?, Option.some.injEq] at step
    subst step
    split
    · exact lays_of_raise w _
    · exact lays_of_submit w _
  | enqueue =>
    simp only [Thread.stepCommand?, Option.some.injEq] at step
    subst step
    split
    · exact lays_of_raise w _
    · split
      · trivial
      · exact lays_of_submit w _
  | schedule | scheduleConcurrently =>
    cases step
    trivial
  | runPending =>
    simp only [Thread.stepCommand?, Option.some.injEq] at step
    subst step
    split <;> trivial

theorem lays_of_move (i : Instruction) (move : Move) (inner : List Frame) :
    (t.stepMove w i move inner).deed.Lays w := by
  cases move with
  | report =>
    simp only [Thread.stepMove]
    split
    · trivial
    · exact lays_of_raise w _
  | panic => exact lays_of_raise w _
  | drainOwn | issue => trivial
  | lendBlob | bindPublished =>
    simp only [Thread.stepMove]
    split
    · exact lays_of_raise w _
    · split
      · exact lays_of_raise w _
      · trivial

theorem lays_of_frame {frame : Frame} {fresh : Nat}
    {outcomes : Nat → Option (Except Panic Reply)}
    (step : t.stepFrame? w fresh outcomes frame outer = some r) : r.deed.Lays w := by
  cases frame with
  | command c => exact lays_of_command step
  | action a action => exact lays_of_action step
  | schedule left total =>
    cases left <;> cases step <;> trivial
  | drain s point e =>
    cases step
    cases point <;> simp only [Thread.stepDrain] <;> first | trivial | (split <;> trivial)
  | run i phases =>
    cases step
    cases phases with
    | nil => trivial
    | cons phase phases =>
      simp only [Thread.stepRun]
      split
      · exact lays_of_raise w _
      · trivial
  | phase i phase moves =>
    cases moves <;> cases step
    · trivial
    · exact lays_of_move i _ _
  | borrow =>
    rw [Thread.stepFrame?] at step
    split at step <;> cases step
    trivial
  | callback a actions =>
    cases actions <;> cases step <;> trivial
  | log | logDrain | catching | helper =>
    cases step
    trivial
  | join threads =>
    simp only [Thread.stepFrame?] at step
    split at step
    · cases step
    · split at step <;> cases step <;> trivial

theorem lays_of_reply (reply : Reply) (frame : Frame) :
    (t.stepReply w reply frame outer).deed.Lays w := by
  cases frame with
  | run i phases => cases phases <;> trivial
  | _ => trivial

theorem lays_of_unwind (panic : Panic) (frame : Frame) :
    (t.stepUnwind panic frame outer).deed.Lays w := by
  cases frame <;> trivial

theorem lays_of_step? {fresh : Nat} {outcomes : Nat → Option (Except Panic Reply)}
    (step : t.step? w fresh outcomes = some r) : r.deed.Lays w := by
  rw [Thread.step?] at step
  split at step
  · cases step
  · split at step
    · exact lays_of_frame step
    · cases step
      exact lays_of_reply _ _
    · cases step
      exact lays_of_unwind _ _

end Deed

namespace Machine

variable {m₀ m m' : Machine} {seen : List Occurrence}

theorem Moves.kept (h : m.Moves seen m') (id : StorageId) :
    Blob.Kept (m.world.store.blob? id) (m'.world.store.blob? id) := by
  cases h with
  | step i step =>
    simp only [stepAt?, Option.bind_eq_bind, Option.bind_eq_some_iff] at step
    obtain ⟨t, -, r, step, h⟩ := step
    cases h
    exact World.kept_after (Deed.lays_of_step? step) id
  | expire i step =>
    simp only [expireAt?, Option.bind_eq_bind, Option.bind_eq_some_iff] at step
    obtain ⟨t, -, h⟩ := step
    split at h <;> cases h
    exact .refl _
  | call | offer | revise => exact .refl _

theorem Reaches.kept (h : m₀.Reaches seen m) (id : StorageId) :
    Blob.Kept (m₀.world.store.blob? id) (m.world.store.blob? id) := by
  induction h with
  | refl => exact .refl _
  | move _ last ih => exact ih.trans (last.kept id)

end Machine

namespace BlobShelf

/-- The shelf after commands in order. -/
def after (shelf : BlobShelf) : List BlobCommand → BlobShelf
  | [] => shelf
  | command :: rest =>
    match shelf.perform command with
    | .ok (_, shelf) => after shelf rest
    | .error _ => after shelf rest

/-- Commands are answered from the shelf that those before them have left. -/
theorem replies_append (shelf : BlobShelf) (first second : List BlobCommand) :
    shelf.replies (first ++ second) = shelf.replies first ++ (shelf.after first).replies second := by
  induction first generalizing shelf with
  | nil => rfl
  | cons command rest ih =>
    cases done : shelf.perform command <;>
      simp only [List.cons_append, replies, after, done, ih]

/-- All blobs on a shelf have been made. -/
def Made (shelf : BlobShelf) : Prop := ∀ name blob, shelf.lookup name = some blob → blob.Made

variable {shelf shelf' : BlobShelf} {name : String} {blob : Blob} {reply : Reply}

theorem Made.put (h : shelf.Made) (made : blob.Made) : Made (putKey name blob shelf) := by
  intro other found there
  by_cases same : other = name
  · rw [same, lookup_putKey_self] at there
    cases there
    exact made
  · rw [lookup_putKey_of_ne same] at there
    exact h other found there

theorem Made.of_find (h : shelf.Made) (found : shelf.find name = .ok blob) : blob.Made := by
  rw [find] at found
  split at found <;> cases found
  next there => exact h name blob there

theorem Made.keepMade (h : shelf.Made) {made : Except BlobError Blob}
    (sound : ∀ blob, made = .ok blob → blob.Made) : Made (shelf.keepMade name made).2 := by
  cases made with
  | ok blob => exact h.put (sound blob rfl)
  | error => exact h

theorem Made.perform (h : shelf.Made) {command : BlobCommand}
    (done : shelf.perform command = .ok (reply, shelf')) : shelf'.Made := by
  cases command with
  | zeros name shape dataType =>
    simp only [BlobShelf.perform, bind_ok] at done
    obtain ⟨blob, made, done⟩ := done
    cases done
    exact h.put ⟨shape, dataType, blob, .zeros (mapError_eq_ok made), .refl⟩
  | tryZeros name shape dataType =>
    simp only [BlobShelf.perform, bind_ok] at done
    obtain ⟨made, zeroed, done⟩ := done
    obtain rfl := congrArg Prod.snd (Except.ok.inj done)
    refine h.keepMade ?_
    rintro blob rfl
    exact ⟨shape, dataType, blob, .tryZeros (mapError_eq_ok zeroed), .refl⟩
  | ofWords name shape words =>
    simp only [BlobShelf.perform, bind_ok] at done
    obtain ⟨made, written, done⟩ := done
    obtain rfl := congrArg Prod.snd (Except.ok.inj done)
    refine h.keepMade ?_
    rintro blob rfl
    exact ⟨shape, .f32, blob, .ofWords words rfl (mapError_eq_ok written), .refl⟩
  | copy name source =>
    simp only [BlobShelf.perform, bind_ok] at done
    obtain ⟨blob, found, done⟩ := done
    cases done
    exact h.put (h.of_find found)
  | write name words =>
    simp only [BlobShelf.perform, bind_ok] at done
    obtain ⟨old, found, done⟩ := done
    split at done <;> cases done
    next written => exact h.put ((h.of_find found).becomes (.single (.writeWords words written)))
    · exact h
  | setByte name index value =>
    simp only [BlobShelf.perform, bind_ok] at done
    obtain ⟨old, found, new, changed, done⟩ := done
    cases done
    exact h.put ((h.of_find found).becomes (.single (.setByte index value (mapError_eq_ok changed))))
  | layout name | read name | bytes name =>
    simp only [BlobShelf.perform, bind_ok] at done
    obtain ⟨_, -, done⟩ := done
    cases done
    exact h
  | equal a b =>
    simp only [BlobShelf.perform, bind_ok] at done
    obtain ⟨_, -, _, -, done⟩ := done
    cases done
    exact h

theorem Made.after (h : shelf.Made) (commands : List BlobCommand) : (shelf.after commands).Made := by
  induction commands generalizing shelf with
  | nil => exact h
  | cons command rest ih =>
    rw [BlobShelf.after]
    split
    next done => exact ih (h.perform done)
    · exact ih h

end BlobShelf

/-- The size of a blob is what its shape and its element type come to, and both are those that it was
constructed with: of every blob that has been constructed and changed in place since, of every blob
that the threads of a machine have brought to a storage, which keeps it from then on, and of every
blob on the shelf from which a session answers. -/
theorem blobs_laid {config : MachineConfig} {registry : Registry} {w : World}
    {past seen : List Occurrence}
    {m₀ m : Machine} (created : World.create config registry = .ok w)
    (earlier : Machine.Reaches ⟨w, []⟩ past m₀) (run : m₀.Reaches seen m) :
    (∀ shape dataType (blob : Blob), blob.Stems shape dataType → blob.Whole shape dataType) ∧
    (∀ id blob, m.world.store.blob? id = some blob → blob.Made) ∧
    (∀ id first, m₀.world.store.blob? id = some first → ∃ blob,
      m.world.store.blob? id = some blob ∧ blob.Whole first.shape first.dataType) ∧
    (∀ commands name blob, (BlobShelf.after [] commands).lookup name = some blob → blob.Made) ∧
    ∀ commands more, BlobShelf.replies [] (commands ++ more) =
      BlobShelf.replies [] commands ++ (BlobShelf.after [] commands).replies more := by
  have empty (id : StorageId) : w.store.blob? id = none := by
    rw [World.create] at created
    split at created <;> cases created
    rfl
  have before (id : StorageId) : Blob.Kept none (m₀.world.store.blob? id) :=
    empty id ▸ earlier.kept id
  refine ⟨fun shape dataType blob stems => (Blob.Laid.of_stems stems).whole, ?_, ?_, ?_,
    BlobShelf.replies_append []⟩
  · intro id blob found
    exact ((before id).trans (run.kept id)).made found
  · intro id first found
    obtain ⟨shape, dataType, stems⟩ := (before id).made found
    obtain ⟨blob, now, changes⟩ : ∃ blob, _ ∧ first.Becomes blob := found ▸ run.kept id
    have laid := Blob.Laid.of_stems stems
    refine ⟨blob, now, ?_⟩
    rw [laid.shape_eq, laid.dataType_eq]
    exact (laid.becomes changes).whole
  · have none : BlobShelf.Made [] := by
      intro name blob found
      cases found
    exact none.after

/-- Both instructions change the blob, the first also fails to, and both panic before they are done. -/
def failingWrites : List Message :=
  [.lending .host ⟨"a", 0⟩ [.access (.setByte 7 9), .attempt (.access (.setByte 8 9)),
    .access (.writeWords [3]), .access (.copyFrom [0]), .panic "enough"],
    .lending .host ⟨"a", 0⟩
      [.access (.writeWords [5, 6]), .panic "enough", .access (.writeWords [7, 8])]]

theorem blobs_laid_of_failingWrites : ∃ past seen m₀ m,
    World.create {} .empty = .ok idlePair ∧ Machine.Reaches ⟨idlePair, []⟩ past m₀ ∧
    m₀.Reaches seen m ∧
    m₀.world.store.blob? ⟨.blob "a", 0⟩ = some ⟨⟨[2]⟩, .f32, [1, 0, 0, 0, 2, 0, 0, 0]⟩ ∧
    m.world.store.blob? ⟨.blob "a", 0⟩ = some ⟨⟨[2]⟩, .f32, [5, 0, 0, 0, 6, 0, 0, 0]⟩ ∧
    (∃ blob, m.world.store.blob? ⟨.blob "a", 0⟩ = some blob ∧ blob.Whole ⟨[2]⟩ .f32) := by
  have created : World.create {} .empty = .ok idlePair := rfl
  let made : Machine :=
    ((⟨idlePair, [.ofCommand (.store (.newBlob "a" (.words ⟨[2]⟩ [1, 2])))]⟩ : Machine).run 5).1
  have earlier : Machine.Reaches ⟨idlePair, []⟩ _ made := (Machine.Reaches.refl.move (.call _)).goOn 5
  have offered : made.Reaches _ _ :=
    (Machine.Reaches.refl.move (.offer 0 failingWrites[0] (by decide) rfl)).move
      (.offer 0 failingWrites[1] (by decide) rfl)
  have run := ((offered.move (.call .schedule)).goOn 60 |>.move (.call .schedule)).goOn 60
  obtain ⟨-, -, kept, -⟩ := blobs_laid created earlier run
  exact ⟨_, _, _, _, created, earlier, run, rfl, by decide +kernel, kept ⟨.blob "a", 0⟩ _ rfl⟩

end StreamMachine
