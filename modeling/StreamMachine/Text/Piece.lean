import StreamMachine.Text.Quoted

/-! Pieces of a text between two byte positions of its UTF-8 form. A position inside a character is
a fault. -/
namespace StreamMachine.Text

def byteSize (cs : List Char) : Nat := cs.foldr (fun c n => c.utf8Size + n) 0

/-- The parts before and behind a byte position, or the character that the position is inside of and
how many of its bytes are in front. A position beyond the end counts as the end. -/
def splitAtByte : Nat → List Char → Except (Char × Nat) (List Char × List Char)
  | _, [] => .ok ([], [])
  | n, c :: cs =>
    if n = 0 then .ok ([], c :: cs)
    else if c.utf8Size ≤ n then (splitAtByte (n - c.utf8Size) cs).map fun r => (c :: r.1, r.2)
    else .error (c, n)

inductive PieceEnd where
  | front
  | back
  deriving DecidableEq, Repr

/-- An end of a piece inside a character, which starts at a byte position of its own. -/
structure PieceFault where
  side : PieceEnd
  position : Nat
  character : Char
  first : Nat
  deriving DecidableEq, Repr

def PieceEnd.display : PieceEnd → String
  | front => "start"
  | back => "end"

def PieceFault.message (f : PieceFault) : String :=
  let last := f.first + f.character.utf8Size
  s!"{f.side.display} byte index {f.position} is not a char boundary; " ++
    s!"it is inside {quoteChar f.character} (bytes {f.first}..{last} of string)"

/-- The characters between two byte positions; of two faults the one in front counts. -/
def piece (cs : List Char) (front back : Nat) : Except PieceFault (List Char) :=
  match splitAtByte front cs with
  | .error (c, n) => .error ⟨.front, front, c, front - n⟩
  | .ok (_, rest) =>
    match splitAtByte (back - front) rest with
    | .error (c, n) => .error ⟨.back, back, c, back - n⟩
    | .ok (inner, _) => .ok inner

end StreamMachine.Text
