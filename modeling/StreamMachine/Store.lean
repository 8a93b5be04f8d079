import StreamMachine.Instruction.Operand

/-! The store: storages with their locks, handles bound to storages, and the catalog under whose
names storages are published. -/
namespace StreamMachine

variable {κ α : Type} [DecidableEq κ]

def dropKey (key : κ) (entries : List (κ × α)) : List (κ × α) :=
  entries.filter fun e => e.1 != key

/-- Replaces or adds the value of a key in a list that holds each key once. -/
def putKey (key : κ) (value : α) (entries : List (κ × α)) : List (κ × α) :=
  (key, value) :: dropKey key entries

theorem lookup_dropKey_self (key : κ) (entries : List (κ × α)) :
    (dropKey key entries).lookup key = none := by
  simp only [dropKey, List.lookup_eq_none_iff, List.mem_filter]
  rintro e ⟨-, he⟩
  exact bne_iff_ne.2 (bne_iff_ne.1 he).symm

theorem lookup_dropKey_of_ne {key other : κ} (h : other ≠ key)
    (entries : List (κ × α)) : (dropKey key entries).lookup other = entries.lookup other := by
  induction entries with
  | nil => rfl
  | cons e rest ih =>
    obtain ⟨k, a⟩ := e
    by_cases hk : k = key
    · subst hk
      simpa [dropKey, List.lookup_cons, beq_false_of_ne h] using ih
    · by_cases ho : other = k
      · simp [dropKey, hk, ho]
      · simpa [dropKey, List.lookup_cons, hk, beq_false_of_ne ho] using ih

theorem lookup_putKey_self (key : κ) (value : α) (entries : List (κ × α)) :
    (putKey key value entries).lookup key = some value := by
  simp [putKey]

theorem lookup_putKey_of_ne {key other : κ} (h : other ≠ key) (value : α)
    (entries : List (κ × α)) :
    (putKey key value entries).lookup other = entries.lookup other := by
  rw [putKey, List.lookup_cons, beq_false_of_ne h]
  exact lookup_dropKey_of_ne h entries

/-- What has been made under each key, in the order of making. -/
abbrev Series (κ α : Type) := List (κ × List α)

namespace Series

def made (s : Series κ α) (key : κ) : List α := (s.lookup key).getD []

def at? (s : Series κ α) (key : κ) (turn : Nat) : Option α := (s.made key)[turn]?

def add (s : Series κ α) (key : κ) (a : α) : Series κ α := putKey key (s.made key ++ [a]) s

def modify (s : Series κ α) (key : κ) (turn : Nat) (f : α → α) : Series κ α :=
  putKey key ((s.made key).modify turn f) s

end Series

/-- The name under which a storage was made. -/
inductive Origin where
  | blob (name : String)
  | storage (name : String)
  deriving DecidableEq, Repr

/-- A storage: where it comes from, and how many came from there before it. -/
structure StorageId where
  origin : Origin
  turn : Nat
  deriving DecidableEq, Repr

inductive Lock where
  | free
  /-- Held by this many readers beside a first one. -/
  | shared (others : Nat)
  | exclusive
  deriving DecidableEq, Repr

namespace Lock

def canAcquire : AccessMode → Lock → Bool
  | .read, exclusive => false
  | .read, _ => true
  | .write, free => true
  | .write, _ => false

def acquire : AccessMode → Lock → Lock
  | .write, _ => exclusive
  | .read, shared n => shared (n + 1)
  | .read, _ => shared 0

/-- Gives up one hold. -/
def release : Lock → Lock
  | shared (n + 1) => shared n
  | _ => free

end Lock

structure Cell where
  blob : Blob
  lock : Lock := .free
  deriving DecidableEq, Repr

structure Store where
  cells : Series Origin Cell := []
  /-- The storages that the handles are bound to, by the names of the handles. -/
  bindings : Series String StorageId := []
  catalog : List (String × StorageId) := []
  deriving DecidableEq, Repr

namespace Store

def cell? (s : Store) (id : StorageId) : Option Cell := s.cells.at? id.origin id.turn

def blob? (s : Store) (id : StorageId) : Option Blob := (s.cell? id).map (·.blob)

def binding? (s : Store) (handle : Handle) : Option StorageId :=
  s.bindings.at? handle.name handle.turn

def canAcquire (s : Store) (mode : AccessMode) (id : StorageId) : Bool :=
  match s.cell? id with
  | some cell => cell.lock.canAcquire mode
  | none => false

def updateCell (s : Store) (id : StorageId) (f : Cell → Cell) : Store :=
  { s with cells := s.cells.modify id.origin id.turn f }

def acquire (s : Store) (mode : AccessMode) (id : StorageId) : Store :=
  s.updateCell id fun cell => { cell with lock := cell.lock.acquire mode }

def release (s : Store) (id : StorageId) : Store :=
  s.updateCell id fun cell => { cell with lock := cell.lock.release }

def setBlob (s : Store) (id : StorageId) (blob : Blob) : Store :=
  s.updateCell id fun cell => { cell with blob := blob }

def addStorage (s : Store) (origin : Origin) (blob : Blob) : StorageId × Store :=
  (⟨origin, (s.cells.made origin).length⟩, { s with cells := s.cells.add origin ⟨blob, .free⟩ })

def addHandle (s : Store) (name : String) (storage : StorageId) : Handle × Store :=
  (⟨name, (s.bindings.made name).length⟩, { s with bindings := s.bindings.add name storage })

def rebind (s : Store) (handle : Handle) (storage : StorageId) : Store :=
  { s with bindings := s.bindings.modify handle.name handle.turn fun _ => storage }

def published? (s : Store) (name : String) : Option StorageId := s.catalog.lookup name

def publish (s : Store) (name : String) (storage : StorageId) : Store :=
  { s with catalog := putKey name storage s.catalog }

def withdraw (s : Store) (name : String) : Store := { s with catalog := dropKey name s.catalog }

end Store

end StreamMachine
