/-! Tensor shapes and the number of elements they call for. -/
namespace StreamMachine

/-- One more than the largest size a machine word holds. -/
def wordBound : Nat := UInt64.size

/-- Product of two sizes, unless it leaves the range of a machine word. -/
def checkedMul (a b : Nat) : Option Nat := if a * b < wordBound then some (a * b) else none

/-- Row-major dimensions. -/
structure Shape where
  dims : List UInt64
  deriving DecidableEq, Repr

namespace Shape

def scalar : Shape := ⟨[]⟩

def rank (shape : Shape) : Nat := shape.dims.length

/-- Number of elements; every partial product from the left has to fit a machine word. -/
def checkedCount (shape : Shape) : Option Nat :=
  shape.dims.foldlM (fun n d => checkedMul n d.toNat) 1

/-- Number of elements, or the largest word for shapes that no blob can have. -/
def count (shape : Shape) : Nat := shape.checkedCount.getD (wordBound - 1)

/-- The dimensions in decimal digits, with a separator between them. -/
def separated (shape : Shape) (separator : String) : String :=
  separator.intercalate (shape.dims.map fun d => toString d.toNat)

def display (shape : Shape) : String := "(" ++ shape.separated ", " ++ ")"

def debugText (shape : Shape) : String := "Shape([" ++ shape.separated ", " ++ "])"

end Shape

end StreamMachine
