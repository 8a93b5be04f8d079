import StreamMachine.Text.Blank

/-! The kinds of execution context an instruction can ask for, their tags, and the names under
which an instruction kind is registered for each. -/
namespace StreamMachine

inductive AcceleratorFamily where
  | cuda
  | metal
  deriving DecidableEq, Repr

inductive StreamCategory where
  /-- Host control, without device memory. -/
  | host
  | cpu
  | accelerator (family : AcceleratorFamily)
  deriving DecidableEq, Repr

/-- A word that names no category or no data type. -/
inductive TagError where
  | unknownCategory (tag : String)
  | unknownDataType (tag : String)
  deriving DecidableEq, Repr

def TagError.message : TagError → String
  | .unknownCategory tag => s!"unknown stream category: '{tag}'"
  | .unknownDataType tag => s!"unknown data type: '{tag}'"

namespace AcceleratorFamily

def tag : AcceleratorFamily → String
  | cuda => "cuda"
  | metal => "metal"

def all : List AcceleratorFamily := [cuda, metal]

def rank : AcceleratorFamily → Nat
  | cuda => 0
  | metal => 1

instance : Ord AcceleratorFamily := ⟨fun a b => compare a.rank b.rank⟩

def debugText : AcceleratorFamily → String
  | cuda => "Cuda"
  | metal => "Metal"

end AcceleratorFamily

namespace StreamCategory

def all : List StreamCategory := [host, cpu, accelerator .cuda, accelerator .metal]

def tag : StreamCategory → String
  | host => "host"
  | cpu => "cpu"
  | accelerator family => family.tag

/-- Host kinds are registered under bare names, all others behind their tag. -/
def registryPrefix? : StreamCategory → Option String
  | host => none
  | category => some category.tag

/-- The registry key of a logical instruction name. -/
def qualifiedName (category : StreamCategory) (logical : String) : String :=
  match category.registryPrefix? with
  | some leading => leading ++ "." ++ logical
  | none => logical

def isDevice (category : StreamCategory) : Bool := category != host

/-- Position in the order host, cpu, then the accelerators by family. -/
def rank : StreamCategory → Nat
  | host => 0
  | cpu => 1
  | accelerator family => 2 + family.rank

instance : Ord StreamCategory := ⟨fun a b => compare a.rank b.rank⟩

def sort (categories : List StreamCategory) : List StreamCategory :=
  categories.mergeSort fun a b => a.rank ≤ b.rank

def debugText : StreamCategory → String
  | host => "Host"
  | cpu => "Cpu"
  | accelerator family => s!"Accelerator({family.debugText})"

def ofTag? (tag : String) : Option StreamCategory := all.find? (·.tag == tag)

/-- Reads a tag between blanks, in any case of its ASCII letters. -/
def parse (text : String) : Except TagError StreamCategory :=
  match ofTag? ((Text.trim text).map Char.toLower) with
  | some category => .ok category
  | none => .error (.unknownCategory text)

/-- Conversion from a text, which is how a category is deserialized. -/
def ofString (text : String) : Except TagError StreamCategory := parse text

end StreamCategory

end StreamMachine
