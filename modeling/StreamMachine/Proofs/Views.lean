import Mathlib.Data.Multiset.Filter
import Mathlib.Data.Set.Image
import Mathlib.Logic.Equiv.Defs
import StreamMachine.Proofs.Streams

/-! Resources, the parts of a world that steps look at and deeds change. A world is seen through its
resources; a deed changes a few of them and leaves all others as they are. -/
namespace StreamMachine

namespace Series

variable {κ α : Type} [DecidableEq κ]

theorem made_add (s : Series κ α) (k k' : κ) (a : α) :
    (s.add k a).made k' = if k' = k then s.made k ++ [a] else s.made k' := by
  split
  next h => rw [h, made, add, lookup_putKey_self]; rfl
  next h => rw [made, add, lookup_putKey_of_ne h, made]

theorem made_modify (s : Series κ α) (k k' : κ) (t : Nat) (f : α → α) :
    (s.modify k t f).made k' = if k' = k then (s.made k).modify t f else s.made k' := by
  split
  next h => rw [h, made, modify, lookup_putKey_self]; rfl
  next h => rw [made, modify, lookup_putKey_of_ne h, made]

theorem length_made_modify (s : Series κ α) (k k' : κ) (t : Nat) (f : α → α) :
    ((s.modify k t f).made k').length = (s.made k').length := by
  rw [made_modify]
  split
  next h => rw [List.length_modify, h]
  · rfl

theorem length_made_add (s : Series κ α) (k k' : κ) (a : α) :
    ((s.add k a).made k').length = (s.made k').length + if k' = k then 1 else 0 := by
  rw [made_add]
  split
  next h => simp [h]
  · rfl

theorem at?_add (s : Series κ α) (k k' : κ) (t : Nat) (a : α) :
    (s.add k a).at? k' t =
      if k' = k ∧ t = (s.made k).length then some a else s.at? k' t := by
  rw [at?, made_add, at?]
  by_cases hk : k' = k
  · subst hk
    rw [if_pos rfl, List.getElem?_append]
    by_cases ht : t = (s.made k').length
    · simp [ht]
    · split
      · simp [ht]
      next le =>
        have : (s.made k').length < t := by omega
        rw [if_neg (by simp [ht]), List.getElem?_eq_none (by simp; omega),
          List.getElem?_eq_none (by omega)]
  · simp [hk]

theorem at?_modify (s : Series κ α) (k k' : κ) (t t' : Nat) (f : α → α) :
    (s.modify k t f).at? k' t' = if k' = k ∧ t' = t then (s.at? k' t').map f else s.at? k' t' := by
  rw [at?, made_modify, at?]
  by_cases hk : k' = k
  · subst hk
    rw [if_pos rfl, List.getElem?_modify]
    by_cases ht : t' = t
    · simp [ht]
    · simp [ht, Ne.symm ht]
  · simp [hk]

end Series

/-- What a step can look at and a deed can change. -/
inductive Resource where
  | stream (s : Nat)
  /-- Number and order of the streams. -/
  | order
  /-- What a name of blobs stands for, with how many storages and handles were made under it. -/
  | blobName (name : String)
  | storageName (name : String)
  | handle (handle : Handle)
  | storage (id : StorageId)
  /-- The names that a storage is filed under. -/
  | names (id : StorageId)
  | published (name : String)
  | gate (gate : String)
  /-- The threads that drains of their own are started on. -/
  | workers
  deriving DecidableEq

/-- How a resource looks. -/
inductive View where
  | constant
  | stream (stream : Option Stream)
  | blobName (handle : Option Handle) (storages handles : Nat)
  | storageName (filed : List StorageId) (storages : Nat)
  | bound (storage : Option StorageId)
  | cell (cell : Option Cell)
  | names (names : Multiset String)
  | flag (value : Bool)

namespace World

def blobsMade (w : World) (name : String) : Nat := (w.store.cells.made (.blob name)).length

def storagesMade (w : World) (name : String) : Nat := (w.store.cells.made (.storage name)).length

def handlesMade (w : World) (name : String) : Nat := (w.store.bindings.made name).length

def filed (w : World) (name : String) : List StorageId :=
  (w.directory.storages.filter fun e => e.1 == name).map (·.2)

def namesOf (w : World) (id : StorageId) : Multiset String :=
  ((w.directory.storages.filter fun e => e.2 == id).map (·.1) : List String)

def view (w : World) : Resource → View
  | .stream s => .stream w.streams[s]?
  | .order | .workers => .constant
  | .blobName name =>
    .blobName (w.directory.handles.lookup name) (w.blobsMade name) (w.handlesMade name)
  | .storageName name => .storageName (w.filed name) (w.storagesMade name)
  | .handle handle => .bound (w.store.binding? handle)
  | .storage id => .cell (w.store.cell? id)
  | .names id => .names (w.namesOf id)
  | .published name => .bound (w.store.published? name)
  | .gate gate => .flag (w.signals.contains gate)

end World

/-- Resources that a deed changes. -/
def Deed.changes (w : World) : Deed → Set Resource
  | .nothing => ∅
  | .push s _ | .pop s | .setExecuting s _ | .complete s => {.stream s}
  | .acquire _ id | .release id | .setBlob id _ => {.storage id}
  | .newBlob name _ =>
    {.blobName name, .storage ⟨.blob name, w.blobsMade name⟩, .handle ⟨name, w.handlesMade name⟩}
  | .newStorage name _ =>
    let id := ⟨.storage name, w.storagesMade name⟩
    {.storage id, .storageName name, .names id} ∪ Resource.names '' {old | old ∈ w.filed name}
  | .newHandle name _ => {.blobName name, .handle ⟨name, w.handlesMade name⟩}
  | .nameStorage name id =>
    {.storageName name, .names id} ∪ Resource.names '' {old | old ∈ w.filed name}
  | .rebind handle _ => {.handle handle}
  | .publish name _ | .withdraw name => {.published name}
  | .signal gate => {.gate gate}

namespace World

theorem view_updateStream (w : World) (i : Nat) (f : Stream → Stream) (r : Resource) :
    (w.updateStream i f).view r =
      if r = .stream i then .stream ((w.streams[i]?).map f) else w.view r := by
  split
  next h => rw [h, view, getElem?_updateStream, if_pos rfl]
  next h =>
    cases r with
    | stream s =>
      have : i ≠ s := fun e => h (congrArg _ e.symm)
      rw [view, getElem?_updateStream, if_neg this, view]
    | _ => rfl

theorem view_updateCell (w : World) (id : StorageId) (f : Cell → Cell) (r : Resource) :
    (w.withStore (w.store.updateCell id f)).view r =
      if r = .storage id then .cell ((w.store.cell? id).map f) else w.view r := by
  have cell (id' : StorageId) : (w.store.updateCell id f).cell? id' =
      if id' = id then (w.store.cell? id').map f else w.store.cell? id' := by
    obtain ⟨origin, turn⟩ := id
    obtain ⟨origin', turn'⟩ := id'
    simp only [Store.updateCell, Store.cell?, Series.at?_modify, StorageId.mk.injEq]
  split
  next h => rw [h, view, withStore, cell, if_pos rfl]
  next h =>
    cases r with
    | storage id' =>
      have : id' ≠ id := fun e => h (congrArg _ e)
      rw [view, withStore, cell, if_neg this, view]
    | blobName name | storageName name =>
      simp [view, withStore, Store.updateCell, blobsMade, storagesMade, handlesMade,
        Series.length_made_modify, filed]
    | _ => rfl

theorem view_newHandle (w : World) (name : String) (id : StorageId) (r : Resource) :
    (w.newHandle name id).view r =
      if r = .blobName name then
        .blobName (some ⟨name, w.handlesMade name⟩) (w.blobsMade name) (w.handlesMade name + 1)
      else if r = .handle ⟨name, w.handlesMade name⟩ then .bound (some id)
      else w.view r := by
  cases r with
  | blobName name' =>
    by_cases h : name' = name
    · simp [h, view, newHandle, nameHandle, withStore, Store.addHandle, handlesMade, blobsMade,
        lookup_putKey_self, Series.length_made_add]
    · simp [h, view, newHandle, nameHandle, withStore, Store.addHandle, handlesMade, blobsMade,
        lookup_putKey_of_ne, Series.length_made_add]
  | handle handle =>
    obtain ⟨name', turn⟩ := handle
    have made := Series.at?_add w.store.bindings name name' turn id
    simp only [view, newHandle, nameHandle, withStore, Store.addHandle, Store.binding?, made,
      Resource.handle.injEq, Handle.mk.injEq, handlesMade, reduceCtorEq, if_false]
    split <;> rfl
  | _ => rfl

theorem view_newBlob (w : World) (name : String) (blob : Blob) (r : Resource) :
    (w.after (.newBlob name blob)).view r =
      if r = .blobName name then
        .blobName (some ⟨name, w.handlesMade name⟩) (w.blobsMade name + 1) (w.handlesMade name + 1)
      else if r = .handle ⟨name, w.handlesMade name⟩ then
        .bound (some ⟨.blob name, w.blobsMade name⟩)
      else if r = .storage ⟨.blob name, w.blobsMade name⟩ then .cell (some ⟨blob, .free⟩)
      else w.view r := by
  rw [after, view_newHandle]
  split
  · simp [blobsMade, handlesMade, withStore, Store.addStorage, Series.length_made_add]
  next other =>
    congr 1
    cases r with
    | storage id =>
      obtain ⟨origin, turn⟩ := id
      have made := Series.at?_add w.store.cells (.blob name) origin turn ⟨blob, .free⟩
      simp only [view, withStore, Store.addStorage, Store.cell?, made, Resource.storage.injEq,
        StorageId.mk.injEq, blobsMade]
      split <;> rfl
    | blobName name' =>
      have : name' ≠ name := fun e => other (congrArg _ e)
      simp [view, withStore, blobsMade, handlesMade, Store.addStorage, Series.length_made_add, this]
    | storageName name' =>
      simp [view, withStore, storagesMade, filed, Store.addStorage, Series.length_made_add]
    | _ => rfl

/-- The names of a storage once a name has been given to a storage. -/
def refiled (w : World) (name : String) (id other : StorageId) : Multiset String :=
  let rest := (w.namesOf other).filter (· ≠ name)
  if other = id then name ::ₘ rest else rest

theorem mem_filed {w : World} {name : String} {id : StorageId} :
    id ∈ w.filed name ↔ name ∈ w.namesOf id := by
  simp [filed, namesOf]

theorem refiled_of_notMem {w : World} {name : String} {id other : StorageId} (h : other ≠ id)
    (unfiled : other ∉ w.filed name) : w.refiled name id other = w.namesOf other := by
  rw [refiled]
  simp only [h, if_false]
  rw [Multiset.filter_eq_self]
  rintro name' mem rfl
  exact unfiled (mem_filed.2 mem)

theorem filed_nameStorage (w : World) (name name' : String) (id : StorageId) :
    (w.nameStorage name id).filed name' = if name' = name then [id] else w.filed name' := by
  simp only [filed, nameStorage, putKey, dropKey, List.filter_cons, List.filter_filter]
  by_cases h : name' = name
  · simp [h]
  · have head : (name == name') = false := by simpa using Ne.symm h
    simp only [head, h, if_false, Bool.false_eq_true]
    congr 1
    refine List.filter_congr fun e _ => ?_
    by_cases he : e.1 = name' <;> simp [he, h]

theorem namesOf_nameStorage (w : World) (name : String) (id other : StorageId) :
    (w.nameStorage name id).namesOf other = w.refiled name id other := by
  have rest : ((dropKey name w.directory.storages).filter fun e => e.2 == other).map (·.1) =
      ((w.directory.storages.filter fun e => e.2 == other).map (·.1)).filter (· ≠ name) := by
    rw [dropKey, List.filter_map, List.filter_filter, List.filter_filter]
    congr 1
    refine List.filter_congr fun e _ => ?_
    by_cases he : e.1 = name <;> simp [he]
  simp only [refiled, namesOf, nameStorage, putKey, List.filter_cons, Multiset.filter_coe]
  by_cases h : other = id
  · subst h
    simp only [beq_self_eq_true, if_true, List.map_cons, rest, Multiset.cons_coe]
  · have : (id == other) = false := by simpa using Ne.symm h
    simp only [this, h, if_false, Bool.false_eq_true, rest]

theorem view_nameStorage (w : World) (name : String) (id : StorageId) (r : Resource) :
    (w.nameStorage name id).view r =
      if r = .storageName name then .storageName [id] (w.storagesMade name)
      else match r with
        | .names other => .names (w.refiled name id other)
        | _ => w.view r := by
  cases r with
  | storageName name' =>
    simp only [view, filed_nameStorage, Resource.storageName.injEq]
    split
    next h => rw [h]; rfl
    · rfl
  | names other =>
    simp only [view, namesOf_nameStorage, reduceCtorEq, if_false]
  | _ => rfl

theorem view_newStorage (w : World) (name : String) (blob : Blob) (r : Resource) :
    (w.after (.newStorage name blob)).view r =
      if r = .storageName name then
        .storageName [⟨.storage name, w.storagesMade name⟩] (w.storagesMade name + 1)
      else if r = .storage ⟨.storage name, w.storagesMade name⟩ then .cell (some ⟨blob, .free⟩)
      else match r with
        | .names other => .names (w.refiled name ⟨.storage name, w.storagesMade name⟩ other)
        | _ => w.view r := by
  rw [after, view_nameStorage]
  split
  · simp [storagesMade, withStore, Store.addStorage, Series.length_made_add]
  next h =>
    cases r with
    | storage id =>
      obtain ⟨origin, turn⟩ := id
      have made := Series.at?_add w.store.cells (.storage name) origin turn ⟨blob, .free⟩
      simp only [view, withStore, Store.addStorage, Store.cell?, made, Resource.storage.injEq,
        StorageId.mk.injEq, storagesMade]
      split <;> rfl
    | blobName name' =>
      simp [view, withStore, blobsMade, handlesMade, Store.addStorage, Series.length_made_add]
    | storageName name' =>
      have : name' ≠ name := fun e => h (congrArg _ e)
      simp [view, withStore, storagesMade, filed, Store.addStorage, Series.length_made_add, this]
    | _ => rfl

theorem view_rebind (w : World) (handle : Handle) (id : StorageId) (r : Resource) :
    (w.after (.rebind handle id)).view r =
      if r = .handle handle then .bound ((w.store.binding? handle).map fun _ => id)
      else w.view r := by
  cases r with
  | handle other =>
    obtain ⟨name', turn'⟩ := other
    obtain ⟨name, turn⟩ := handle
    have made := Series.at?_modify w.store.bindings name name' turn turn' fun _ => id
    simp only [view, after, withStore, Store.rebind, Store.binding?, made, Resource.handle.injEq,
      Handle.mk.injEq]
    split
    next h => rw [h.1, h.2]
    · rfl
  | blobName name =>
    simp [view, after, withStore, Store.rebind, blobsMade, handlesMade, Series.length_made_modify]
  | _ => rfl

theorem view_publish (w : World) (name : String) (id : StorageId) (r : Resource) :
    (w.after (.publish name id)).view r =
      if r = .published name then .bound (some id) else w.view r := by
  cases r with
  | published name' =>
    by_cases h : name' = name
    · simp [h, view, after, withStore, Store.publish, Store.published?, lookup_putKey_self]
    · simp [h, view, after, withStore, Store.publish, Store.published?, lookup_putKey_of_ne]
  | _ => rfl

theorem view_withdraw (w : World) (name : String) (r : Resource) :
    (w.after (.withdraw name)).view r =
      if r = .published name then .bound none else w.view r := by
  cases r with
  | published name' =>
    by_cases h : name' = name
    · simp [h, view, after, withStore, Store.withdraw, Store.published?, lookup_dropKey_self]
    · simp [h, view, after, withStore, Store.withdraw, Store.published?, lookup_dropKey_of_ne]
  | _ => rfl

theorem view_signal (w : World) (gate : String) (r : Resource) :
    (w.after (.signal gate)).view r = if r = .gate gate then .flag true else w.view r := by
  cases r with
  | gate other =>
    by_cases h : other = gate <;> simp [h, view, after]
  | _ => rfl

/-- All that a deed changes is among its changes. -/
theorem view_after_of_notMem {w : World} {d : Deed} {r : Resource} (h : r ∉ d.changes w) :
    (w.after d).view r = w.view r := by
  cases d with
  | nothing => rfl
  | push s m | pop s | setExecuting s b | complete s =>
    rw [after, view_updateStream]
    exact if_neg h
  | acquire mode id | release id | setBlob id blob =>
    exact (view_updateCell w id _ r).trans (if_neg h)
  | rebind handle id => rw [view_rebind]; exact if_neg h
  | publish name id => rw [view_publish]; exact if_neg h
  | withdraw name => rw [view_withdraw]; exact if_neg h
  | signal gate => rw [view_signal]; exact if_neg h
  | newHandle name id =>
    simp only [Deed.changes, Set.mem_insert_iff, Set.mem_singleton_iff, not_or] at h
    rw [after, view_newHandle, if_neg h.1, if_neg h.2]
  | newBlob name blob =>
    simp only [Deed.changes, Set.mem_insert_iff, Set.mem_singleton_iff, not_or] at h
    rw [view_newBlob, if_neg h.1, if_neg h.2.2, if_neg h.2.1]
  | nameStorage name id =>
    simp only [Deed.changes, Set.mem_union, Set.mem_insert_iff, Set.mem_singleton_iff,
      Set.mem_image, Set.mem_ofPred_eq, not_or, not_exists, not_and] at h
    rw [after, view_nameStorage, if_neg h.1.1]
    cases r with
    | names other =>
      have new : other ≠ id := fun e => h.1.2 (congrArg _ e)
      exact congrArg _ (refiled_of_notMem new fun mem => h.2 other mem rfl)
    | _ => rfl
  | newStorage name blob =>
    simp only [Deed.changes, Set.mem_union, Set.mem_insert_iff, Set.mem_singleton_iff,
      Set.mem_image, Set.mem_ofPred_eq, not_or, not_exists, not_and] at h
    rw [view_newStorage, if_neg h.1.2.1, if_neg h.1.1]
    cases r with
    | names other =>
      have new : other ≠ _ := fun e => h.1.2.2 (congrArg _ e)
      exact congrArg _ (refiled_of_notMem new fun mem => h.2 other mem rfl)
    | _ => rfl

end World

end StreamMachine
