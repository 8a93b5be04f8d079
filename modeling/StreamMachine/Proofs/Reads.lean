import Mathlib.Data.Multiset.Sort
import Mathlib.Data.String.Basic
import StreamMachine.Machine.Step
import StreamMachine.Proofs.Turn
import StreamMachine.Proofs.Alike

/-! What commands look at before they act. On worlds that look alike there, a command comes to the
same. -/
namespace StreamMachine

/-- All streams, in their order. -/
def everyStream : Set Resource := insert .order (Set.range Resource.stream)

namespace World

/-- What is looked at to find the storage behind the handle of a name. -/
def boundReads (w : World) (blob : String) : Set Resource :=
  insert (.blobName blob) (Resource.handle '' {h | w.directory.handles.lookup blob = some h})

def contentReads (w : World) (blob : String) : Set Resource :=
  w.boundReads blob ∪ Resource.storage '' {id | w.bound blob = .ok id}

def peekReads (w : World) (storage : String) : Set Resource :=
  insert (.storageName storage) (Resource.storage '' {id | w.storage storage = .ok id})

def publishedReads (w : World) (name : String) : Set Resource :=
  insert (.published name) (Resource.names '' {id | w.store.published? name = some id})

end World

def StoreCommand.reads (w : World) : StoreCommand → Set Resource
  | .newBlob .. | .newStorage .. => ∅
  | .newHandle _ storage => {.storageName storage}
  | .grab blob _ => w.boundReads blob
  | .rebind blob storage => {.blobName blob, .storageName storage}
  | .shares blob storage => insert (.storageName storage) (w.boundReads blob)
  | .sharesBlob a b => w.boundReads a ∪ w.boundReads b
  | .snapshot blob | .poke blob _ => w.contentReads blob
  | .peek storage | .pokeStorage storage _ => w.peekReads storage
  | .sameContents a b => w.contentReads a ∪ w.contentReads b
  | .publish name storage => insert (.storageName storage) (w.publishedReads name)
  | .published name | .withdraw name => w.publishedReads name
  | .isPublished name => {.published name}
  | .publishedCount => Set.range Resource.published

def QueryCommand.reads (w : World) : QueryCommand → Set Resource
  | .isExecuting category | .stream category =>
    Resource.stream '' {s | w.streamOf? category = some s}
  | .pending | .debug => everyStream
  | .lookup _ | .names => ∅

def OperandSpec.reads : OperandSpec → Set Resource
  | .write blob _ | .read blob _ | .lazyReference blob _ => {.blobName blob}
  | .word _ | .string _ => ∅

def Command.reads (w : World) : Command → Set Resource
  | .store command => command.reads w
  | .query command => command.reads w
  | .receive _ operand => operand.reads
  | .receiveMessage _ operand | .enqueue _ _ operand => operand.elim ∅ OperandSpec.reads
  | .schedule => everyStream
  | .scheduleConcurrently => insert .workers everyStream
  | .runPending _ => ∅

theorem lookup_eq_head? {κ α : Type} [DecidableEq κ] (entries : List (κ × α)) (key : κ) :
    entries.lookup key = ((entries.filter fun e => e.1 == key).map (·.2)).head? := by
  induction entries with
  | nil => rfl
  | cons e entries ih =>
    obtain ⟨k, a⟩ := e
    by_cases h : k = key
    · simp [h]
    · have : (key == k) = false := by simpa using Ne.symm h
      simp [List.lookup_cons, h, this, ih]

theorem World.storageNames_some (w : World) (id : StorageId) :
    w.storageNames (some id) = .texts ((w.namesOf id).sort (· ≤ ·)) := by
  rw [namesOf, Multiset.coe_sort]
  simp only [storageNames]

/-- A catalog without repetitions is as long as there are names in it. -/
theorem length_eq_of_lookup {κ α : Type} [DecidableEq κ] {xs ys : List (κ × α)}
    (hx : (xs.map (·.1)).Nodup) (hy : (ys.map (·.1)).Nodup)
    (same : ∀ key, xs.lookup key = ys.lookup key) : xs.length = ys.length := by
  have mem {zs : List (κ × α)} (key : κ) : key ∈ zs.map (·.1) ↔ (zs.lookup key).isSome := by
    rw [Option.isSome_iff_ne_none, ne_eq, List.lookup_eq_none_iff]
    simp
  have perm : (xs.map (·.1)).Perm (ys.map (·.1)) :=
    (List.perm_ext_iff_of_nodup hx hy).2 fun key => by rw [mem, mem, same]
  simpa using perm.length_eq

namespace World.Alike

variable {f : Equiv.Perm Nat} {R : Set Resource} {w w' : World}

theorem handle (h : Alike f R w w') {name : String} (hn : .blobName name ∈ R) :
    w'.handle name = w.handle name := by
  rw [World.handle, World.handle, (h.blobName hn).1]

theorem storage (h : Alike f R w w') {name : String} (hn : .storageName name ∈ R) :
    w'.storage name = w.storage name := by
  rw [World.storage, World.storage, lookup_eq_head?, lookup_eq_head?]
  exact congrArg (fun ids => named "storage" name ids.head?) (h.storageName hn).1

theorem bound (h : Alike f R w w') {name : String} (reads : w.boundReads name ⊆ R) :
    w'.bound name = w.bound name := by
  have hn : .blobName name ∈ R := reads (.inl rfl)
  rw [World.bound, World.bound, h.handle hn]
  cases found : w.directory.handles.lookup name with
  | none => simp [World.handle, found, named, bind, Except.bind]
  | some handle =>
    have hh : .handle handle ∈ R := reads (.inr ⟨handle, found, rfl⟩)
    simp [World.handle, found, named, bind, Except.bind, h.binding hh]

theorem canAcquire (h : Alike f R w w') {id : StorageId} (hi : .storage id ∈ R)
    (mode : AccessMode) : w'.store.canAcquire mode id = w.store.canAcquire mode id := by
  rw [Store.canAcquire, Store.canAcquire, h.cell hi]

theorem blob? (h : Alike f R w w') {id : StorageId} (hi : .storage id ∈ R) :
    w'.store.blob? id = w.store.blob? id := by
  rw [Store.blob?, Store.blob?, h.cell hi]

theorem readable? (h : Alike f R w w') {id : StorageId} (hi : .storage id ∈ R) :
    w'.readable? id = w.readable? id := by
  rw [World.readable?, World.readable?, h.canAcquire hi, h.blob? hi]

theorem poke? (h : Alike f R w w') {id : StorageId} (hi : .storage id ∈ R) (words : List UInt32) :
    w'.poke? id words = w.poke? id words := by
  rw [World.poke?, World.poke?, h.canAcquire hi, h.blob? hi]

/-- What follows on the storage behind a name of blobs. -/
theorem bind_bound {α : Type} (h : Alike f R w w') {name : String}
    (reads : w.contentReads name ⊆ R) {g g' : StorageId → Except Panic α}
    (same : ∀ id, .storage id ∈ R → g' id = g id) : w'.bound name >>= g' = w.bound name >>= g := by
  rw [h.bound fun r hr => reads (.inl hr)]
  cases found : w.bound name with
  | error panic => rfl
  | ok id => exact same id (reads (.inr ⟨id, found, rfl⟩))

theorem bind_storage {α : Type} (h : Alike f R w w') {name : String}
    (reads : w.peekReads name ⊆ R) {g g' : StorageId → Except Panic α}
    (same : ∀ id, .storage id ∈ R → g' id = g id) :
    w'.storage name >>= g' = w.storage name >>= g := by
  rw [h.storage (reads (.inl rfl))]
  cases found : w.storage name with
  | error panic => rfl
  | ok id => exact same id (reads (.inr ⟨id, found, rfl⟩))

theorem storageNames (h : Alike f R w w') {name : String} (reads : w.publishedReads name ⊆ R) :
    w'.storageNames (w'.store.published? name) = w.storageNames (w.store.published? name) := by
  rw [h.published (reads (.inl rfl))]
  cases found : w.store.published? name with
  | none => rfl
  | some id =>
    rw [storageNames_some, storageNames_some, h.namesOf (reads (.inr ⟨id, found, rfl⟩))]

theorem publishedCount (h : Alike f R w w') (reads : Set.range Resource.published ⊆ R) :
    w'.store.catalog.length = w.store.catalog.length :=
  length_eq_of_lookup h.tidy' h.tidy fun name => h.published (reads ⟨name, rfl⟩)

theorem everyStream (h : Alike f R w w') (reads : StreamMachine.everyStream ⊆ R) :
    f = Equiv.refl Nat ∧ w'.streams = w.streams := by
  have ordered := h.ordered (reads (.inl rfl))
  refine ⟨ordered, List.ext_getElem? fun s => ?_⟩
  simpa [ordered] using h.streams (reads (.inr ⟨s, rfl⟩))

theorem storeCommand? (h : Alike f R w w') {c : StoreCommand} (reads : c.reads w ⊆ R) :
    w'.storeCommand? c = w.storeCommand? c := by
  cases c with
  | newBlob name source | newStorage name source => rfl
  | newHandle name storage =>
    simp only [World.storeCommand?, h.storage (reads rfl)]
  | grab blob storage => simp only [World.storeCommand?, h.bound reads]
  | rebind blob storage =>
    simp only [World.storeCommand?, h.handle (reads (.inl rfl)), h.storage (reads (.inr rfl))]
  | shares blob storage =>
    have bound := h.bound fun r hr => reads (.inr hr)
    simp only [World.storeCommand?, bound, h.storage (reads (.inl rfl))]
  | sharesBlob a b =>
    have left := h.bound fun r hr => reads (.inl hr)
    have right := h.bound fun r hr => reads (.inr hr)
    simp only [World.storeCommand?, left, right]
  | snapshot blob => exact h.bind_bound reads fun id hi => by rw [h.readable? hi]
  | poke blob words => exact h.bind_bound reads fun id hi => by rw [h.poke? hi]
  | peek storage => exact h.bind_storage reads fun id hi => by rw [h.readable? hi]
  | pokeStorage storage words => exact h.bind_storage reads fun id hi => by rw [h.poke? hi]
  | sameContents a b =>
    refine h.bind_bound (fun r hr => reads (.inl hr)) fun x hx => ?_
    refine h.bind_bound (fun r hr => reads (.inr hr)) fun y hy => ?_
    rw [h.readable? hx, h.readable? hy]
  | publish name storage =>
    have names := h.storageNames fun r hr => reads (.inr hr)
    simp only [World.storeCommand?, h.storage (reads (.inl rfl)), names]
  | published name | withdraw name => simp only [World.storeCommand?, h.storageNames reads]
  | isPublished name => simp only [World.storeCommand?, h.published (reads rfl)]
  | publishedCount => simp only [World.storeCommand?, h.publishedCount reads]

theorem streamOf? (h : Alike f R w w') {category : StreamCategory} {s : Nat}
    (found : w.streamOf? category = some s) : w'.streamOf? category = some (f s) := by
  rw [h.routes, found]
  rfl

theorem categoryAt (h : Alike f R w w') (s : Nat) : w'.categoryAt (f s) = w.categoryAt s := by
  rw [categoryAt_eq, categoryAt_eq, h.profiles]

theorem deviceAt (h : Alike f R w w') (s : Nat) : w'.deviceAt (f s) = w.deviceAt s := by
  rw [deviceAt_eq, deviceAt_eq, h.profiles]

theorem find? (h : Alike f R w w') {category : StreamCategory}
    (reads : Resource.stream '' {s | w.streamOf? category = some s} ⊆ R) :
    (w'.streams.find? fun s => s.category == category) =
      w.streams.find? fun s => s.category == category := by
  rw [List.find?_eq_bind_findIdx?_getElem?, List.find?_eq_bind_findIdx?_getElem?]
  change (w'.streamOf? category).bind _ = (w.streamOf? category).bind _
  cases found : w.streamOf? category with
  | none => rw [h.routes, found]; rfl
  | some s =>
    rw [h.streamOf? found]
    exact h.streams (reads ⟨s, found, rfl⟩)

theorem query (h : Alike f R w w') {c : QueryCommand} (reads : c.reads w ⊆ R) :
    w'.query c = w.query c := by
  cases c with
  | isExecuting category | stream category => simp only [World.query, h.find? reads]
  | pending => simp only [World.query, World.pending, (h.everyStream reads).2]
  | debug =>
    have same : w'.debugText = w.debugText :=
      calc w'.debugText
          = World.debugText { w with streams := w'.streams, registry := w'.registry } := rfl
        _ = w.debugText := by rw [(h.everyStream reads).2, h.registry]
    exact congrArg (fun text => Except.ok (Reply.text text)) same
  | lookup name | names => simp only [World.query, h.registry]

theorem operand (h : Alike f R w w') {spec : OperandSpec} (reads : spec.reads ⊆ R) :
    w'.operand spec = w.operand spec := by
  cases spec with
  | write blob | read blob | lazyReference blob =>
    simp only [World.operand, h.handle (reads rfl)]
  | word | string => rfl

theorem message (h : Alike f R w w') {spec : Option OperandSpec}
    (reads : spec.elim ∅ OperandSpec.reads ⊆ R) (name : String) :
    w'.message name spec = w.message name spec := by
  have same : w'.operand? spec = w.operand? spec := by
    cases spec with
    | none => rfl
    | some spec => simp only [World.operand?, h.operand reads]
  rw [World.message, World.message, same, h.registry]

end World.Alike

end StreamMachine
