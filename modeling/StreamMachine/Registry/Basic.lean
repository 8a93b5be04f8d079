import StreamMachine.Registry.Behavior

/-! The catalog of instruction kinds: names in the order of registration, each with the category its
behavior named when it was registered. -/
namespace StreamMachine

structure Descriptor where
  name : String
  /-- Position in the order of registration. -/
  id : Nat
  category : StreamCategory
  behavior : Behavior

def Descriptor.debugText (d : Descriptor) : String :=
  "InstructionTypeDescriptor \x7b name: " ++ Text.quote d.name ++ s!", id: {d.id}"
    ++ s!", stream_category: {d.category.debugText}, .. \x7d"

structure Registry where
  /-- Name to position. -/
  ids : List (String × Nat) := []
  descriptors : List Descriptor := []

/-- Outcome of a registration that does not abort. -/
inductive Registration where
  | rejected (error : RegistryError)
  | accepted (descriptor : Descriptor) (registry : Registry)

namespace Registry

def empty : Registry := {}

def size (r : Registry) : Nat := r.descriptors.length

def isEmpty (r : Registry) : Bool := r.descriptors.isEmpty

def names (r : Registry) : List String := r.descriptors.map (·.name)

def contains (r : Registry) (name : String) : Bool := (r.ids.lookup name).isSome

def get? (r : Registry) (id : Nat) : Option Descriptor := r.descriptors[id]?

def lookup? (r : Registry) (name : String) : Option Descriptor := r.ids.lookup name >>= r.get?

def tryLookup (r : Registry) (name : String) : Except RegistryError Descriptor :=
  match r.lookup? name with
  | some descriptor => .ok descriptor
  | none => .error (.notFound name)

/-- Resolves a name that has to be there. -/
def lookup (r : Registry) (name : String) : Except Violation Descriptor :=
  (r.tryLookup name).mapError .registry

def insert (r : Registry) (d : Descriptor) : Registry :=
  ⟨(d.name, d.id) :: r.ids, r.descriptors ++ [d]⟩

@[simp] theorem names_insert (r : Registry) (d : Descriptor) :
    (r.insert d).names = r.names ++ [d.name] := by
  simp [names, insert]

/-- Registers a behavior unless the name is taken. Only an accepted behavior is asked for its
category, and only once. -/
def tryRegister (r : Registry) (name : String) (behavior : Behavior) :
    Except Panic Registration :=
  if r.contains name then .ok (.rejected (.duplicate name))
  else match behavior.category 0 with
    | .error panic => .error panic
    | .ok category =>
      let descriptor := ⟨name, r.size, category, behavior⟩
      .ok (.accepted descriptor (r.insert descriptor))

/-- Registers a behavior under a name that has to be free. -/
def register (r : Registry) (name : String) (behavior : Behavior) :
    Except Panic (Descriptor × Registry) :=
  match r.tryRegister name behavior with
  | .error panic => .error panic
  | .ok (.accepted descriptor registry) => .ok (descriptor, registry)
  | .ok (.rejected error) => .error (.violation (.registry error))

def commaList (texts : List String) : String := ", ".intercalate texts

def debugText (r : Registry) : String := "[" ++ commaList (r.names.map Text.quote) ++ "]"

/-- Total size of the behaviors. -/
def weight (r : Registry) : Nat := r.descriptors.foldr (fun d n => d.behavior.size + n) 0

/-- The instruction kinds that come with the machine. -/
def builtinKinds : List (String × Behavior) :=
  [("WriteBlobByCallback", .lending .write .host),
   ("cpu.WriteBlobByCallback", .lending .write .cpu),
   ("ReadBlobByCallback", .lending .read .host),
   ("cpu.ReadBlobByCallback", .lending .read .cpu),
   ("cpu.LazyReference", .lazyReference .cpu)]

end Registry

end StreamMachine
