import StreamMachine.Proofs.Views

/-! Worlds that look alike as far as a set of resources goes, with the streams in another order if
need be. A deed leaves them alike as long as all that it changes is in that set. -/
namespace StreamMachine

variable {f : Equiv.Perm Nat}

def Resource.moved (f : Equiv.Perm Nat) : Resource → Resource
  | .stream s => .stream (f s)
  | r => r

theorem Resource.moved_injective : Function.Injective (Resource.moved f) := by
  intro r r' h
  cases r <;> cases r' <;> simp_all [moved]

def Deed.moved (f : Equiv.Perm Nat) : Deed → Deed
  | .push s m => .push (f s) m
  | .pop s => .pop (f s)
  | .setExecuting s executing => .setExecuting (f s) executing
  | .complete s => .complete (f s)
  | d => d

/-- The catalog holds each name once. -/
def World.Tidy (w : World) : Prop := (w.store.catalog.map (·.1)).Nodup

/-- Worlds that look alike on resources; `f` tells where a stream of the first is in the second. -/
structure World.Alike (f : Equiv.Perm Nat) (R : Set Resource) (w w' : World) : Prop where
  registry : w'.registry = w.registry
  profiles : ∀ s : Nat, w'.profiles[f s]? = w.profiles[s]?
  routes : ∀ category, w'.streamOf? category = (w.streamOf? category).map f
  tidy : w.Tidy
  tidy' : w'.Tidy
  ordered : .order ∈ R → f = Equiv.refl Nat
  views : ∀ r ∈ R, w'.view (r.moved f) = w.view r

theorem nodup_dropKey {κ α : Type} [DecidableEq κ] {entries : List (κ × α)}
    (h : (entries.map (·.1)).Nodup) (key : κ) : ((dropKey key entries).map (·.1)).Nodup := by
  exact h.sublist (List.filter_sublist.map _)

theorem nodup_putKey {κ α : Type} [DecidableEq κ] {entries : List (κ × α)}
    (h : (entries.map (·.1)).Nodup) (key : κ) (value : α) :
    ((putKey key value entries).map (·.1)).Nodup := by
  rw [putKey, List.map_cons, List.nodup_cons]
  refine ⟨?_, nodup_dropKey h key⟩
  simp [dropKey]

theorem World.Tidy.after {w : World} (h : w.Tidy) (d : Deed) : (w.after d).Tidy := by
  cases d with
  | publish name id => exact nodup_putKey h name id
  | withdraw name => exact nodup_dropKey h name
  | _ => exact h

namespace World.Alike

variable {R : Set Resource} {w w' : World}

theorem streams (h : Alike f R w w') {s : Nat} (hs : .stream s ∈ R) :
    w'.streams[f s]? = w.streams[s]? := by
  simpa [view, Resource.moved] using h.views _ hs

theorem blobName (h : Alike f R w w') {name : String} (hn : .blobName name ∈ R) :
    w'.directory.handles.lookup name = w.directory.handles.lookup name ∧
      w'.blobsMade name = w.blobsMade name ∧ w'.handlesMade name = w.handlesMade name := by
  simpa [view, Resource.moved] using h.views _ hn

theorem storageName (h : Alike f R w w') {name : String} (hn : .storageName name ∈ R) :
    w'.filed name = w.filed name ∧ w'.storagesMade name = w.storagesMade name := by
  simpa [view, Resource.moved] using h.views _ hn

theorem binding (h : Alike f R w w') {handle : Handle} (hh : .handle handle ∈ R) :
    w'.store.binding? handle = w.store.binding? handle := by
  simpa [view, Resource.moved] using h.views _ hh

theorem cell (h : Alike f R w w') {id : StorageId} (hi : .storage id ∈ R) :
    w'.store.cell? id = w.store.cell? id := by
  simpa [view, Resource.moved] using h.views _ hi

theorem namesOf (h : Alike f R w w') {id : StorageId} (hi : .names id ∈ R) :
    w'.namesOf id = w.namesOf id := by
  simpa [view, Resource.moved] using h.views _ hi

theorem published (h : Alike f R w w') {name : String} (hn : .published name ∈ R) :
    w'.store.published? name = w.store.published? name := by
  simpa [view, Resource.moved] using h.views _ hn

theorem gate (h : Alike f R w w') {gate : String} (hg : .gate gate ∈ R) :
    w'.signals.contains gate = w.signals.contains gate := by
  simpa [view, Resource.moved] using h.views _ hg

/-- The same deed changes the same resources. -/
theorem changes (h : Alike f R w w') {d : Deed} (inside : d.changes w ⊆ R) :
    (d.moved f).changes w' = Resource.moved f '' d.changes w := by
  have unmoved (ids : Set StorageId) :
      Resource.moved f '' (Resource.names '' ids) = Resource.names '' ids := Set.image_image _ _ _
  cases d with
  | nothing => exact (Set.image_empty _).symm
  | newBlob name blob | newHandle name id =>
    obtain ⟨-, blobs, handles⟩ := h.blobName (inside (.inl rfl))
    simp only [Deed.changes, Deed.moved, Set.image_insert_eq, Set.image_singleton, blobs, handles]
    rfl
  | newStorage name blob =>
    obtain ⟨filed, storages⟩ := h.storageName (inside (.inl (.inr (.inl rfl))))
    simp only [Deed.changes, Deed.moved, Set.image_union, Set.image_insert_eq, Set.image_singleton,
      filed, storages, unmoved]
    rfl
  | nameStorage name id =>
    obtain ⟨filed, -⟩ := h.storageName (inside (.inl (.inl rfl)))
    simp only [Deed.changes, Deed.moved, Set.image_union, Set.image_insert_eq, Set.image_singleton,
      filed, unmoved]
    rfl
  | _ => simp only [Deed.changes, Deed.moved, Set.image_singleton]; rfl

theorem mem_changes (h : Alike f R w w') {d : Deed} (inside : d.changes w ⊆ R) (r : Resource) :
    r.moved f ∈ (d.moved f).changes w' ↔ r ∈ d.changes w := by
  rw [h.changes inside, Resource.moved_injective.mem_set_image]

theorem refiled (h : Alike f R w w') {other : StorageId} (ho : .names other ∈ R) (name : String)
    (id : StorageId) : w'.refiled name id other = w.refiled name id other := by
  rw [World.refiled, World.refiled, h.namesOf ho]

/-- What a deed makes of a resource it changes depends on the resources it changes. -/
theorem view_after_of_mem (h : Alike f R w w') {d : Deed} (inside : d.changes w ⊆ R) {r : Resource}
    (hr : r ∈ d.changes w) : (w'.after (d.moved f)).view (r.moved f) = (w.after d).view r := by
  have mem := inside hr
  cases d with
  | nothing => exact hr.elim
  | push s m | pop s | setExecuting s b | complete s =>
    obtain rfl := hr
    simp only [Deed.moved, World.after, view_updateStream, Resource.moved, if_true, h.streams mem]
  | acquire mode id | release id | setBlob id blob =>
    obtain rfl := hr
    refine (view_updateCell w' id _ _).trans ((view_updateCell w id _ _).trans ?_).symm
    simp only [Resource.moved, if_true, h.cell mem]
  | rebind handle id =>
    obtain rfl := hr
    simp only [Deed.moved, view_rebind, Resource.moved, if_true, h.binding mem]
  | publish name id => obtain rfl := hr; simp [Deed.moved, view_publish, Resource.moved]
  | withdraw name => obtain rfl := hr; simp [Deed.moved, view_withdraw, Resource.moved]
  | signal gate => obtain rfl := hr; simp [Deed.moved, view_signal, Resource.moved]
  | newHandle name id =>
    obtain ⟨-, blobs, handles⟩ := h.blobName (inside (.inl rfl))
    simp only [Deed.moved, World.after, view_newHandle, blobs, handles]
    obtain rfl | rfl := hr <;> simp [Resource.moved]
  | newBlob name blob =>
    obtain ⟨-, blobs, handles⟩ := h.blobName (inside (.inl rfl))
    simp only [Deed.moved, view_newBlob, blobs, handles]
    obtain rfl | rfl | rfl := hr <;> simp [Resource.moved]
  | nameStorage name id =>
    obtain ⟨-, storages⟩ := h.storageName (inside (.inl (.inl rfl)))
    simp only [Deed.moved, World.after, view_nameStorage, storages]
    obtain (rfl | rfl) | ⟨old, -, rfl⟩ := hr
    · simp [Resource.moved]
    all_goals simp [Resource.moved, h.refiled mem]
  | newStorage name blob =>
    obtain ⟨-, storages⟩ := h.storageName (inside (.inl (.inr (.inl rfl))))
    simp only [Deed.moved, view_newStorage, storages]
    obtain (rfl | rfl | rfl) | ⟨old, -, rfl⟩ := hr
    · simp [Resource.moved]
    · simp [Resource.moved]
    all_goals simp [Resource.moved, h.refiled mem]

theorem after (h : Alike f R w w') {d : Deed} (inside : d.changes w ⊆ R) :
    Alike f R (w.after d) (w'.after (d.moved f)) where
  registry := by rw [registry_after, registry_after, h.registry]
  profiles s := by rw [profiles_after, profiles_after, h.profiles]
  routes category := by rw [streamOf?_after, streamOf?_after, h.routes]
  tidy := h.tidy.after d
  tidy' := h.tidy'.after _
  ordered := h.ordered
  views r hr := by
    by_cases changed : r ∈ d.changes w
    · exact h.view_after_of_mem inside changed
    · have kept := mt (h.mem_changes inside r).1 changed
      rw [view_after_of_notMem kept, view_after_of_notMem changed, h.views r hr]

end World.Alike

end StreamMachine
