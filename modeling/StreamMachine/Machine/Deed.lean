import StreamMachine.Machine.World

/-! Deeds: the changes that one step can make to what the threads share. -/
namespace StreamMachine

inductive Deed where
  | nothing
  /-- Puts a message at the end of a queue. -/
  | push (stream : Nat) (message : Message)
  /-- Takes the first message off a queue. -/
  | pop (stream : Nat)
  | setExecuting (stream : Nat) (executing : Bool)
  | complete (stream : Nat)
  | acquire (mode : AccessMode) (id : StorageId)
  | release (id : StorageId)
  | setBlob (id : StorageId) (blob : Blob)
  /-- A new storage with a handle bound to it, under one name. -/
  | newBlob (name : String) (blob : Blob)
  | newStorage (name : String) (blob : Blob)
  | newHandle (name : String) (id : StorageId)
  | nameStorage (name : String) (id : StorageId)
  | rebind (handle : Handle) (id : StorageId)
  | publish (name : String) (id : StorageId)
  | withdraw (name : String)
  | signal (gate : String)

namespace World

def nameHandle (w : World) (name : String) (handle : Handle) : World :=
  { w with directory := { w.directory with handles := putKey name handle w.directory.handles } }

def nameStorage (w : World) (name : String) (id : StorageId) : World :=
  { w with directory := { w.directory with storages := putKey name id w.directory.storages } }

/-- A handle under a name, bound to a storage. -/
def newHandle (w : World) (name : String) (id : StorageId) : World :=
  let (handle, store) := w.store.addHandle name id
  (w.withStore store).nameHandle name handle

/-- The world after a deed. -/
def after (w : World) : Deed → World
  | .nothing => w
  | .push s m => w.updateStream s (·.push m)
  | .pop s => w.updateStream s (·.pop)
  | .setExecuting s executing => w.updateStream s (·.setExecuting executing)
  | .complete s => w.updateStream s (·.complete)
  | .acquire mode id => w.withStore (w.store.acquire mode id)
  | .release id => w.withStore (w.store.release id)
  | .setBlob id blob => w.withStore (w.store.setBlob id blob)
  | .newBlob name blob =>
    let (id, store) := w.store.addStorage (.blob name) blob
    (w.withStore store).newHandle name id
  | .newStorage name blob =>
    let (id, store) := w.store.addStorage (.storage name) blob
    (w.withStore store).nameStorage name id
  | .newHandle name id => w.newHandle name id
  | .nameStorage name id => w.nameStorage name id
  | .rebind handle id => w.withStore (w.store.rebind handle id)
  | .publish name id => w.withStore (w.store.publish name id)
  | .withdraw name => w.withStore (w.store.withdraw name)
  | .signal gate => { w with signals := gate :: w.signals }

end World

end StreamMachine
