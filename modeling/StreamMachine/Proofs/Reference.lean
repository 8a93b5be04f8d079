import StreamMachine.Proofs.Views

/-! A reference model of the store. It has no locks, names or turns: handles stand for storages,
storages for blobs, and names of the catalog for storages again. What a program does to its store comes
down to a few acts on this model. -/
namespace StreamMachine

theorem lookup_putKey {κ α : Type} [DecidableEq κ] (key other : κ) (value : α)
    (entries : List (κ × α)) : (putKey key value entries).lookup other =
      if other = key then some value else entries.lookup other := by
  split
  next h => rw [h, lookup_putKey_self]
  next h => exact lookup_putKey_of_ne h value entries

theorem Lock.release_acquire_free (mode : AccessMode) : (Lock.acquire mode .free).release = .free := by
  cases mode <;> rfl

namespace AccessMode

/-- The blob after an access; none if the access panics. -/
def access? (mode : AccessMode) (blob : Blob) (x : Access) : Option Blob :=
  match mode, x with
  | .write, .writeWords words => some ((blob.writeWords words).toOption.getD blob)
  | .write, .copyFrom source => some ((blob.copyFrom source).toOption.getD blob)
  | .write, .setByte index value => (blob.setByte index value).toOption
  | .read, x => if x.writes then none else some blob
  | .write, _ => some blob

/-- What an access makes of a blob; one that fails leaves it as it is. -/
def apply (mode : AccessMode) (blob : Blob) (x : Access) : Blob := (mode.access? blob x).getD blob

theorem apply_of_some {mode : AccessMode} {blob new : Blob} {x : Access}
    (h : mode.access? blob x = some new) : mode.apply blob x = new := by
  rw [apply, h, Option.getD_some]

theorem apply_of_none {mode : AccessMode} {blob : Blob} {x : Access}
    (h : mode.access? blob x = none) : mode.apply blob x = blob := by
  rw [apply, h, Option.getD_none]

theorem apply_read (blob : Blob) (x : Access) : read.apply blob x = blob := by
  cases x <;> rfl

/-- What accesses make of a blob, one after another. -/
def result (mode : AccessMode) (xs : List Access) (blob : Blob) : Blob := xs.foldl mode.apply blob

theorem result_read (xs : List Access) (blob : Blob) : read.result xs blob = blob := by
  induction xs with
  | nil => rfl
  | cons x xs ih =>
    rw [result, List.foldl_cons, apply_read]
    exact ih

theorem result_append (mode : AccessMode) (xs : List Access) (x : Access) (blob : Blob) :
    mode.result (xs ++ [x]) blob = mode.apply (mode.result xs blob) x := by
  simp [result, List.foldl_append]

end AccessMode

/-- What an action on a blob comes to, and whether it returns. -/
def Action.result (mode : AccessMode) (blob : Blob) : Action → Blob × Bool
  | .access x => (mode.apply blob x, (mode.access? blob x).isSome)
  | .panic _ => (blob, false)
  | .attempt action => ((action.result mode blob).1, true)
  | _ => (blob, true)

/-- What a callback makes of a blob: its actions happen one after another, up to the first panic. -/
def AccessMode.callback (mode : AccessMode) : List Action → Blob → Blob
  | [], blob => blob
  | x :: xs, blob =>
    let (blob, returned) := x.result mode blob
    if returned then mode.callback xs blob else blob

namespace Accessor

variable {a : Accessor} {w : World} {blob : Blob} {x : Access}

theorem access?_of_perform_ok {reply : Reply} {new : Blob}
    (h : a.perform w blob x = .ok (reply, new)) : a.mode.access? blob x = some new := by
  obtain ⟨storage, mode, category, device⟩ := a
  cases mode with
  | read => cases x <;> cases h <;> rfl
  | write =>
    cases x with
    | writeWords words =>
      cases found : blob.writeWords words <;>
        simp_all [perform, AccessMode.access?, Except.toOption]
    | copyFrom source =>
      cases found : blob.copyFrom source <;>
        simp_all [perform, AccessMode.access?, Except.toOption]
    | setByte index value =>
      cases found : blob.setByte index value <;>
        simp_all [perform, AccessMode.access?, Except.toOption]
    | _ => cases h; rfl

theorem access?_of_perform_error {panic : Panic} (h : a.perform w blob x = .error panic) :
    a.mode.access? blob x = none := by
  obtain ⟨storage, mode, category, device⟩ := a
  cases mode with
  | read => cases x <;> cases h <;> rfl
  | write =>
    cases x with
    | writeWords words =>
      cases found : blob.writeWords words <;> simp_all [perform]
    | copyFrom source =>
      cases found : blob.copyFrom source <;> simp_all [perform]
    | setByte index value =>
      cases found : blob.setByte index value <;>
        simp_all [perform, AccessMode.access?, Except.toOption]
    | _ => cases h

end Accessor

theorem isSome_update {κ β : Type} [DecidableEq κ] {f : κ → Option β} {k k' : κ} {b : Option β}
    (new : (f k).isSome → b.isSome) (h : (f k').isSome) : (Function.update f k b k').isSome := by
  rw [Function.update_apply]
  split
  next same => exact new (same ▸ h)
  · exact h

structure Reference where
  env : Handle → Option StorageId
  heap : StorageId → Option Blob
  catalog : String → Option StorageId

/-- What can be done to the reference. -/
inductive Act where
  | create (id : StorageId) (blob : Blob)
  /-- A new handle. -/
  | bind (handle : Handle) (id : StorageId)
  | rebind (handle : Handle) (id : StorageId)
  | publish (name : String) (id : StorageId)
  | withdraw (name : String)
  /-- A callback writes the blob behind a handle. -/
  | write (handle : Handle) (callback : List Action)
  | read (handle : Handle) (callback : List Action)
  /-- A handle is bound to what is published under a name, if anything is. -/
  | link (handle : Handle) (name : String)

/-- What a callback comes to that is lent the blob behind a handle. -/
def AccessMode.act (mode : AccessMode) (handle : Handle) (callback : List Action) : Act :=
  match mode with
  | .write => .write handle callback
  | .read => .read handle callback

namespace Reference

def empty : Reference := ⟨fun _ => none, fun _ => none, fun _ => none⟩

/-- The blob that is seen through a handle. -/
def content? (r : Reference) (handle : Handle) : Option Blob := r.env handle >>= r.heap

/-- The reference after an act; none if a storage or a handle that is to be new exists, or if one that is
to be used does not. -/
def next? (r : Reference) : Act → Option Reference
  | .create id blob =>
    if r.heap id = none then some { r with heap := Function.update r.heap id (some blob) } else none
  | .bind h id =>
    if r.env h = none ∧ (r.heap id).isSome then
      some { r with env := Function.update r.env h (some id) }
    else none
  | .rebind h id =>
    if (r.env h).isSome ∧ (r.heap id).isSome then
      some { r with env := Function.update r.env h (some id) }
    else none
  | .publish n id =>
    if (r.heap id).isSome then some { r with catalog := Function.update r.catalog n (some id) }
    else none
  | .withdraw n => some { r with catalog := Function.update r.catalog n none }
  | .write h xs => (r.env h).map fun id =>
    { r with heap := Function.update r.heap id ((r.heap id).map (AccessMode.write.callback xs)) }
  | .read h _ => (r.env h).map fun _ => r
  | .link h n =>
    match r.env h, r.catalog n with
    | some _, some id => some { r with env := Function.update r.env h (some id) }
    | _, _ => some r

def run (r : Reference) (acts : List Act) : Option Reference := acts.foldlM next? r

variable {r r' : Reference}

theorem run_one (r : Reference) (a : Act) : r.run [a] = r.next? a := by
  simp [run]

theorem run_append {xs : List Act} (h : r.run xs = some r') (ys : List Act) :
    r.run (xs ++ ys) = r'.run ys := by
  rw [run, List.foldlM_append]
  rw [run] at h
  rw [h]
  rfl

/-- Whatever is bound to or published exists. -/
structure Sound (r : Reference) : Prop where
  bound : ∀ h id, r.env h = some id → (r.heap id).isSome
  published : ∀ n id, r.catalog n = some id → (r.heap id).isSome

theorem Sound.next? (sound : r.Sound) {a : Act} (h : r.next? a = some r') : r'.Sound := by
  have updated {β : Type} {κ : Type} [DecidableEq κ] {f : κ → Option β} {p : β → Prop} {k : κ} {b : β}
      (old : ∀ k' b', f k' = some b' → p b') (new : p b) (k' : κ) (b' : β)
      (h : Function.update f k (some b) k' = some b') : p b' := by
    rw [Function.update_apply] at h
    split at h
    · exact Option.some.inj h ▸ new
    · exact old k' b' h
  cases a with
  | create id blob =>
    simp only [Reference.next?, Option.ite_none_right_eq_some, Option.some.injEq] at h
    obtain ⟨-, rfl⟩ := h
    exact ⟨fun h' id' e => isSome_update (fun _ => rfl) (sound.bound h' id' e),
      fun n id' e => isSome_update (fun _ => rfl) (sound.published n id' e)⟩
  | bind h' id | rebind h' id =>
    simp only [Reference.next?, Option.ite_none_right_eq_some, Option.some.injEq] at h
    obtain ⟨⟨-, there⟩, rfl⟩ := h
    exact ⟨updated sound.bound there, sound.published⟩
  | publish n id =>
    simp only [Reference.next?, Option.ite_none_right_eq_some, Option.some.injEq] at h
    obtain ⟨there, rfl⟩ := h
    exact ⟨sound.bound, updated sound.published there⟩
  | withdraw n =>
    cases h
    refine ⟨sound.bound, fun n' id e => ?_⟩
    simp only [Function.update_apply] at e
    split at e
    · cases e
    · exact sound.published n' id e
  | write h' xs =>
    obtain ⟨id, -, rfl⟩ := Option.map_eq_some_iff.1 h
    exact ⟨fun h' id' e => isSome_update (by simp) (sound.bound h' id' e),
      fun n id' e => isSome_update (by simp) (sound.published n id' e)⟩
  | read h' xs =>
    obtain ⟨-, -, rfl⟩ := Option.map_eq_some_iff.1 h
    exact sound
  | link h' n =>
    simp only [Reference.next?] at h
    split at h
    next id _ found =>
      cases h
      exact ⟨updated sound.bound (sound.published n id found), sound.published⟩
    · cases h
      exact sound

/-- A write is seen through the handles that are bound to the same storage, and through no others. -/
theorem content?_of_write {h : Handle} {callback : List Action}
    (step : r.next? (.write h callback) = some r') (k : Handle) : r'.content? k =
      if r.env k = r.env h then (r.content? k).map (AccessMode.write.callback callback)
      else r.content? k := by
  obtain ⟨id, bound, rfl⟩ := Option.map_eq_some_iff.1 step
  rw [bound]
  cases found : r.env k with
  | none => simp [content?, found]
  | some other =>
    by_cases same : other = id
    · subst same
      simp [content?, found]
    · simp [content?, found, same]

theorem env_of_link {h : Handle} {n : String} (step : r.next? (.link h n) = some r') (k : Handle) :
    r'.env k = if k = h ∧ (r.env h).isSome ∧ (r.catalog n).isSome then r.catalog n else r.env k := by
  simp only [next?] at step
  split at step
  next _ _ bound published =>
    cases step
    simp [Function.update_apply, bound, published]
  next none =>
    cases step
    rw [if_neg]
    rintro ⟨-, bound, published⟩
    obtain ⟨old, bound⟩ := Option.isSome_iff_exists.1 bound
    obtain ⟨id, published⟩ := Option.isSome_iff_exists.1 published
    exact none old id bound published

theorem rest_of_link {h : Handle} {n : String} (step : r.next? (.link h n) = some r') :
    r'.heap = r.heap ∧ r'.catalog = r.catalog := by
  simp only [next?] at step
  split at step <;> cases step <;> exact ⟨rfl, rfl⟩

/-- What is published under a name concerns no handle and no blob. -/
theorem rest_of_catalog {a : Act} {n : String} (change : a = .withdraw n ∨ ∃ id, a = .publish n id)
    (step : r.next? a = some r') : r'.env = r.env ∧ r'.heap = r.heap := by
  obtain rfl | ⟨id, rfl⟩ := change
  · cases step
    exact ⟨rfl, rfl⟩
  · simp only [next?, Option.ite_none_right_eq_some, Option.some.injEq] at step
    obtain ⟨-, rfl⟩ := step
    exact ⟨rfl, rfl⟩

theorem sound_empty : empty.Sound := ⟨by simp [empty], by simp [empty]⟩

end Reference

/-- A callback under way: the handle through which it was lent its blob, all that it is going to do, and
the accesses that it has made. -/
structure Loan where
  handle : Handle
  mode : AccessMode
  callback : List Action
  accesses : List Access

namespace Loan

def access (l : Loan) (x : Access) : Loan := { l with accesses := l.accesses ++ [x] }

/-- What the callback has made of the blob so far. -/
def result (l : Loan) (blob : Blob) : Blob := l.mode.result l.accesses blob

theorem result_access (l : Loan) (x : Access) (blob : Blob) :
    (l.access x).result blob = l.mode.apply (l.result blob) x :=
  AccessMode.result_append ..

/-- What the callback comes to when it has ended. -/
def act (l : Loan) : Act := l.mode.act l.handle l.callback

end Loan

/-- The acts that a deed on the store comes to. -/
def Deed.acts (w : World) : Deed → List Act
  | .newBlob name blob =>
    let id := ⟨.blob name, w.blobsMade name⟩
    [.create id blob, .bind ⟨name, w.handlesMade name⟩ id]
  | .newStorage name blob => [.create ⟨.storage name, w.storagesMade name⟩ blob]
  | .newHandle name id => [.bind ⟨name, w.handlesMade name⟩ id]
  | .rebind handle id => [.rebind handle id]
  | .publish name id => [.publish name id]
  | .withdraw name => [.withdraw name]
  | _ => []

/-- The acts that a command on the store comes to, with its names for what they stand for now. -/
def StoreCommand.acts (w : World) : StoreCommand → List Act
  | .newBlob name source =>
    match World.made source with
    | .ok (.ok blob) =>
      let id := ⟨.blob name, w.blobsMade name⟩
      [.create id blob, .bind ⟨name, w.handlesMade name⟩ id]
    | _ => []
  | .newStorage name source =>
    match World.made source with
    | .ok (.ok blob) => [.create ⟨.storage name, w.storagesMade name⟩ blob]
    | _ => []
  | .newHandle name storage =>
    (w.directory.storages.lookup storage).toList.map (.bind ⟨name, w.handlesMade name⟩)
  | .rebind blob storage =>
    match w.directory.handles.lookup blob, w.directory.storages.lookup storage with
    | some handle, some id => [.rebind handle id]
    | _, _ => []
  | .publish name storage => (w.directory.storages.lookup storage).toList.map (.publish name)
  | .withdraw name => [.withdraw name]
  | _ => []

theorem World.cell?_updateCell (w : World) (id other : StorageId) (f : Cell → Cell) :
    (w.store.updateCell id f).cell? other =
      if other = id then (w.store.cell? other).map f else w.store.cell? other := by
  have view := w.view_updateCell id f (.storage other)
  simp only [Resource.storage.injEq] at view
  split at view
  next same =>
    rw [if_pos same, same]
    exact View.cell.inj (same ▸ view)
  next new =>
    rw [if_neg new]
    exact View.cell.inj view

/-- Deeds outside callbacks, on what there is. -/
def Deed.Arranges (r : Reference) : Deed → Prop
  | .nothing | .newBlob .. | .newStorage .. | .withdraw _ => True
  | .newHandle _ id | .nameStorage _ id | .publish _ id => (r.heap id).isSome
  | .rebind handle id => (r.env handle).isSome ∧ (r.heap id).isSome
  | _ => False

/-- Deeds that leave the store and the names in it alone. -/
def Deed.Apart : Deed → Prop
  | .nothing | .push .. | .pop _ | .setExecuting .. | .complete _ => True
  | _ => False

namespace Reference

/-- The cell of a storage: locked, and perhaps changed, by a callback that it is lent to. -/
def cell (r : Reference) (loan : Option Loan) (id : StorageId) (blob : Blob) : Cell :=
  match loan with
  | some l =>
    if r.env l.handle = some id then ⟨l.result blob, Lock.acquire l.mode .free⟩ else ⟨blob, .free⟩
  | none => ⟨blob, .free⟩

/-- A world whose store is that of the reference, but for the callback under way. -/
structure Holds (r : Reference) (loan : Option Loan) (w : World) : Prop where
  env : ∀ h, w.store.binding? h = r.env h
  catalog : ∀ n, w.store.published? n = r.catalog n
  cells : ∀ id, w.store.cell? id = (r.heap id).map (r.cell loan id)
  sound : r.Sound
  handles : ∀ n h, w.directory.handles.lookup n = some h → (r.env h).isSome
  storages : ∀ n id, w.directory.storages.lookup n = some id → (r.heap id).isSome

namespace Holds

variable {r : Reference} {loan : Option Loan} {w : World}

theorem blob? (h : r.Holds none w) (id : StorageId) : w.store.blob? id = r.heap id := by
  rw [Store.blob?, h.cells, Option.map_map]
  exact Option.map_id'

theorem apart (h : r.Holds loan w) {d : Deed} (apart : d.Apart) : r.Holds loan (w.after d) := by
  cases d <;>
    first | exact apart.elim | exact ⟨h.env, h.catalog, h.cells, h.sound, h.handles, h.storages⟩

/-- No storage has the next turn of its origin. -/
theorem heap_fresh (h : r.Holds none w) (origin : Origin) :
    r.heap ⟨origin, (w.store.cells.made origin).length⟩ = none := by
  have none := h.cells ⟨origin, (w.store.cells.made origin).length⟩
  rw [Store.cell?, Series.at?, List.getElem?_eq_none le_rfl] at none
  exact Option.map_eq_none_iff.1 none.symm

theorem env_fresh (h : r.Holds none w) (name : String) : r.env ⟨name, w.handlesMade name⟩ = none := by
  rw [← h.env, Store.binding?, Series.at?]
  exact List.getElem?_eq_none le_rfl

theorem addStorage (h : r.Holds none w) (origin : Origin) (blob : Blob) :
    ∃ r', r.next? (.create (w.store.addStorage origin blob).1 blob) = some r' ∧
      r'.Holds none (w.withStore (w.store.addStorage origin blob).2) ∧
      (r'.heap (w.store.addStorage origin blob).1).isSome := by
  have step : r.next? (.create (w.store.addStorage origin blob).1 blob) = some _ :=
    if_pos (h.heap_fresh origin)
  refine ⟨_, step, ⟨h.env, h.catalog, ?_, h.sound.next? step, h.handles, ?_⟩, by simp⟩
  · rintro ⟨origin', turn⟩
    have made := Series.at?_add w.store.cells origin origin' turn ⟨blob, .free⟩
    simp only [World.withStore, Store.addStorage, Store.cell?, made, Function.update_apply,
      StorageId.mk.injEq]
    split
    · rfl
    · exact h.cells ⟨origin', turn⟩
  · exact fun n id found => isSome_update (fun _ => rfl) (h.storages n id found)

theorem nameStorage (h : r.Holds loan w) (name : String) {id : StorageId}
    (there : (r.heap id).isSome) : r.Holds loan (w.nameStorage name id) := by
  refine ⟨h.env, h.catalog, h.cells, h.sound, h.handles, fun n other found => ?_⟩
  rw [World.nameStorage, lookup_putKey] at found
  split at found
  · cases found
    exact there
  · exact h.storages n other found

theorem newHandle (h : r.Holds none w) (name : String) {id : StorageId} (there : (r.heap id).isSome) :
    ∃ r', r.next? (.bind ⟨name, w.handlesMade name⟩ id) = some r' ∧
      r'.Holds none (w.newHandle name id) := by
  have step : r.next? (.bind ⟨name, w.handlesMade name⟩ id) = some _ :=
    if_pos ⟨h.env_fresh name, there⟩
  refine ⟨_, step, ?_, h.catalog, h.cells, h.sound.next? step, ?_, h.storages⟩
  · intro k
    refine View.bound.inj ((w.view_newHandle name id (.handle k)).trans ?_)
    simp only [Resource.handle.injEq, reduceCtorEq, if_false, Function.update_apply]
    split
    · rfl
    · exact congrArg View.bound (h.env k)
  · intro n k found
    simp only [World.newHandle, World.nameHandle, World.withStore, Store.addHandle,
      lookup_putKey] at found
    split at found
    · cases found
      simp [World.handlesMade]
    · exact isSome_update (fun _ => rfl) (h.handles n k found)

/-- A handle that there is gets another storage. -/
theorem rebound (h : r.Holds none w) {handle : Handle} {id : StorageId} (known : (r.env handle).isSome)
    (sound : Sound { r with env := Function.update r.env handle (some id) }) :
    Holds { r with env := Function.update r.env handle (some id) } none
      (w.after (.rebind handle id)) := by
  refine ⟨?_, h.catalog, h.cells, sound, ?_, h.storages⟩
  · intro k
    refine View.bound.inj ((w.view_rebind handle id (.handle k)).trans ?_)
    simp only [Resource.handle.injEq, Function.update_apply]
    split
    · obtain ⟨old, bound⟩ := Option.isSome_iff_exists.1 known
      rw [h.env, bound]
      rfl
    · exact congrArg View.bound (h.env k)
  · exact fun n k found => isSome_update (fun _ => rfl) (h.handles n k found)

/-- Deeds outside callbacks do to the store what their acts do to the reference. -/
theorem arrange (h : r.Holds none w) {d : Deed} (arranges : d.Arranges r) :
    ∃ r', r.run (d.acts w) = some r' ∧ r'.Holds none (w.after d) := by
  cases d with
  | nothing => exact ⟨r, rfl, h⟩
  | newBlob name blob =>
    obtain ⟨r', create, stored, there⟩ := h.addStorage (.blob name) blob
    obtain ⟨r'', bind, holds⟩ := stored.newHandle name there
    exact ⟨r'', (run_append ((r.run_one _).trans create) [_]).trans ((r'.run_one _).trans bind),
      holds⟩
  | newStorage name blob =>
    obtain ⟨r', create, stored, there⟩ := h.addStorage (.storage name) blob
    exact ⟨r', (r.run_one _).trans create, stored.nameStorage name there⟩
  | newHandle name id =>
    obtain ⟨r', bind, holds⟩ := h.newHandle name arranges
    exact ⟨r', (r.run_one _).trans bind, holds⟩
  | nameStorage name id => exact ⟨r, rfl, h.nameStorage name arranges⟩
  | rebind handle id =>
    have step : r.next? (.rebind handle id) = some _ := if_pos arranges
    exact ⟨_, (r.run_one _).trans step, h.rebound arranges.1 (h.sound.next? step)⟩
  | publish name id =>
    have step : r.next? (.publish name id) = some _ := if_pos arranges
    refine ⟨_, (r.run_one _).trans step, h.env, ?_, h.cells, h.sound.next? step, h.handles, h.storages⟩
    intro n
    refine (lookup_putKey name n id _).trans ?_
    simp only [Function.update_apply]
    split
    · rfl
    · exact h.catalog n
  | withdraw name =>
    have step : r.next? (.withdraw name) = some _ := rfl
    refine ⟨_, (r.run_one _).trans step, h.env, ?_, h.cells, h.sound.next? step, h.handles, h.storages⟩
    intro n
    refine View.bound.inj ((w.view_withdraw name (.published n)).trans ?_)
    simp only [Resource.published.injEq, Function.update_apply]
    split
    · rfl
    · exact congrArg View.bound (h.catalog n)
  | _ => exact arranges.elim

/-- A handle is linked to what is published; one that was never made is left alone. -/
theorem link (h : r.Holds none w) (handle : Handle) {name : String} {id : StorageId}
    (published : w.store.published? name = some id) :
    ∃ r', r.next? (.link handle name) = some r' ∧ r'.Holds none (w.after (.rebind handle id)) := by
  rw [h.catalog] at published
  cases known : r.env handle with
  | some old =>
    have step : r.next? (.link handle name) =
        some { r with env := Function.update r.env handle (some id) } := by
      rw [next?, known, published]
    exact ⟨_, step, h.rebound (by rw [known]; rfl) (h.sound.next? step)⟩
  | none =>
    refine ⟨r, by rw [next?, known], ?_, h.catalog, h.cells, h.sound, h.handles, h.storages⟩
    intro k
    refine View.bound.inj ((w.view_rebind handle id (.handle k)).trans ?_)
    split
    next same =>
      cases same
      rw [h.env, known]
      rfl
    · exact congrArg View.bound (h.env k)

theorem link_unpublished {handle : Handle} {name : String} (h : r.Holds loan w)
    (unpublished : w.store.published? name = none) : r.next? (.link handle name) = some r := by
  rw [h.catalog] at unpublished
  rw [next?, unpublished]
  cases r.env handle <;> rfl

/-- The blob that a callback works on. -/
theorem lent {l : Loan} (h : r.Holds (some l) w) {id : StorageId} (bound : r.env l.handle = some id) :
    ∃ blob, r.heap id = some blob ∧ w.store.blob? id = some (l.result blob) := by
  obtain ⟨blob, found⟩ := Option.isSome_iff_exists.1 (h.sound.bound _ _ bound)
  refine ⟨blob, found, ?_⟩
  rw [Store.blob?, h.cells, found, Option.map_some, Option.map_some, cell]
  simp [bound]

/-- It works on no other. -/
theorem blob?_of_ne {l : Loan} (h : r.Holds (some l) w) {id other : StorageId}
    (bound : r.env l.handle = some id) (ne : other ≠ id) : w.store.blob? other = r.heap other := by
  rw [Store.blob?, h.cells]
  cases r.heap other <;> simp [cell, bound, Ne.symm ne]

/-- If it reads it changes none. -/
theorem blob?_of_read {l : Loan} (h : r.Holds (some l) w) {id : StorageId}
    (bound : r.env l.handle = some id) (mode : l.mode = .read) (other : StorageId) :
    w.store.blob? other = r.heap other := by
  by_cases same : other = id
  · obtain ⟨blob, there, now⟩ := h.lent bound
    rw [same, there, now, Loan.result, mode, AccessMode.result_read]
  · exact h.blob?_of_ne bound same

theorem lend (h : r.Holds none w) {handle : Handle} {id : StorageId} (bound : r.env handle = some id)
    (mode : AccessMode) (callback : List Action) :
    r.Holds (some ⟨handle, mode, callback, []⟩) (w.after (.acquire mode id)) := by
  refine ⟨h.env, h.catalog, fun other => ?_, h.sound, h.handles, h.storages⟩
  rw [World.after, World.withStore, Store.acquire, World.cell?_updateCell, h.cells]
  by_cases same : other = id
  · rw [if_pos same, same]
    cases r.heap id <;> simp [cell, bound, Loan.result, AccessMode.result]
  · rw [if_neg same]
    cases r.heap other <;> simp [cell, bound, Ne.symm same]

/-- An access that changes the blob, or could have. -/
theorem access {l : Loan} (h : r.Holds (some l) w) {id : StorageId} (bound : r.env l.handle = some id)
    {blob : Blob} (found : w.store.blob? id = some blob) (x : Access) :
    r.Holds (some (l.access x)) (w.after (.setBlob id (l.mode.apply blob x))) := by
  obtain ⟨old, there, now⟩ := h.lent bound
  obtain rfl : l.result old = blob := by simpa [now] using found
  refine ⟨h.env, h.catalog, fun other => ?_, h.sound, h.handles, h.storages⟩
  rw [World.after, World.withStore, Store.setBlob, World.cell?_updateCell, h.cells]
  by_cases same : other = id
  · rw [if_pos same, same, there]
    simp [cell, bound, Loan.access, ← Loan.result_access]
  · rw [if_neg same]
    cases r.heap other <;> simp [cell, bound, Ne.symm same, Loan.access]

/-- An access that fails. -/
theorem refused {l : Loan} (h : r.Holds (some l) w) {id : StorageId} (bound : r.env l.handle = some id)
    {blob : Blob} (found : w.store.blob? id = some blob) {x : Access}
    (same : l.mode.apply blob x = blob) : r.Holds (some (l.access x)) w := by
  obtain ⟨old, there, now⟩ := h.lent bound
  obtain rfl : l.result old = blob := by simpa [now] using found
  refine ⟨h.env, h.catalog, fun other => ?_, h.sound, h.handles, h.storages⟩
  rw [h.cells]
  by_cases here : other = id
  · rw [here, there, Option.map_some, Option.map_some, cell, cell, Loan.result_access, same]
    rfl
  · cases r.heap other <;> simp [cell, bound, Ne.symm here, Loan.access]

/-- The callback is over, and the storage is free. -/
theorem close {l : Loan} (h : r.Holds (some l) w) {id : StorageId} (bound : r.env l.handle = some id)
    (done : ∀ blob, r.heap id = some blob → l.result blob = l.mode.callback l.callback blob) :
    ∃ r', r.next? l.act = some r' ∧ r'.Holds none (w.after (.release id)) := by
  obtain ⟨blob, there, -⟩ := h.lent bound
  have cells (other : StorageId) : (w.after (.release id)).store.cell? other =
      if other = id then some ⟨l.result blob, .free⟩ else (r.heap other).map fun b => ⟨b, .free⟩ := by
    rw [World.after, World.withStore, Store.release, World.cell?_updateCell, h.cells]
    split
    next same =>
      rw [same, there]
      simp [cell, bound, Lock.release_acquire_free]
    next new =>
      cases r.heap other <;> simp [cell, bound, Ne.symm new]
  obtain ⟨handle, mode, xs, accesses⟩ := l
  cases mode with
  | write =>
    have step : r.next? (.write handle xs) = some { r with
        heap := Function.update r.heap id ((r.heap id).map (AccessMode.write.callback xs)) } := by
      rw [next?, bound, Option.map_some]
    refine ⟨_, step, h.env, h.catalog, fun other => ?_, h.sound.next? step, h.handles,
      fun n other found => isSome_update (by simp) (h.storages n other found)⟩
    simp only [cells, Function.update_apply]
    split
    · rw [there, done blob there]
      rfl
    · rfl
  | read =>
    refine ⟨r, by rw [Loan.act, AccessMode.act, next?, bound, Option.map_some], h.env, h.catalog, fun other => ?_,
      h.sound, h.handles, h.storages⟩
    rw [cells]
    split
    next same =>
      rw [same, there, Loan.result, AccessMode.result_read]
      rfl
    · rfl

end Holds

end Reference

end StreamMachine
