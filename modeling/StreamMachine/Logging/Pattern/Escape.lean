import StreamMachine.Logging.Pattern.Mode
import StreamMachine.Text.Hex

/-! Escapes in a pattern. -/
namespace StreamMachine.Pattern

/-- What a backslash and the characters behind it stand for. -/
inductive Escape where
  | char (c : Char)
  | set
  | edge
  | wordBoundary
  deriving DecidableEq, Repr

/-- So many characters, which blanks and comments may keep apart, and what follows them. -/
def Mode.take? (m : Mode) : (size : Nat) → List Char → Option (List Char × List Char)
  | 0, cs => some ([], cs)
  | size + 1, cs =>
    match m.skip cs with
    | [] => none
    | c :: cs => (m.take? size cs).map fun (more, rest) => (c :: more, rest)

namespace Escape

/-- A character by its code in a fixed number of digits, up to the given limit. -/
def coded? (m : Mode) (size limit : Nat) (cs : List Char) : Option (Escape × List Char) := do
  let (digits, rest) ← m.take? size cs
  let code ← Text.hexNumber? digits
  if code.isValidChar ∧ code < limit then some (.char (Char.ofNat code), rest) else none

/-- Letters that stand for control characters. -/
def controls : List (Char × Char) :=
  [('a', '\x07'), ('f', '\x0c'), ('t', '\t'), ('n', '\n'), ('r', '\r'), ('v', '\x0b')]

/-- Whether a backslash in front makes a character stand for itself. -/
def standsForItself (c : Char) : Bool :=
  c.toNat < 128 && !c.isAlphanum && c != '<' && c != '>'

/-- Reads an escape from behind its backslash. There are sets of bytes, but of code points none. -/
def read? (m : Mode) : List Char → Option (Escape × List Char)
  | [] => none
  | c :: cs =>
    if c == 'x' then coded? m 2 (if m.unicode then 256 else 128) cs
    else if c == 'u' then coded? m 4 1114112 cs
    else if c == 'U' then coded? m 8 1114112 cs
    else if ['d', 's', 'w'].contains c then if m.unicode then none else some (.set, cs)
    else if ['A', 'z'].contains c then some (.edge, cs)
    else if ['b', 'B', '<', '>'].contains c then
      some (if m.unicode then .wordBoundary else .edge, cs)
    else if standsForItself c then some (.char c, cs)
    else (controls.lookup c).map fun control => (.char control, cs)

end Escape

end StreamMachine.Pattern
