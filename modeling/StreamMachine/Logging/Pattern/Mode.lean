import StreamMachine.Text.Blank

/-! The flags of a pattern, and the blanks and comments that one of them makes insignificant. -/
namespace StreamMachine.Pattern

/-- The flags in force at a place of a pattern. -/
structure Mode where
  /-- Whether classes are of code points; otherwise they are of bytes, which have to be ASCII. -/
  unicode : Bool := true
  foldsCase : Bool := false
  /-- Whether blanks and comments are passed over. -/
  spaced : Bool := false

/-- Flags are different letters, with a hyphen perhaps, but not at the end. -/
def areFlags (flags : List Char) : Bool :=
  flags.all "imsURux-".toList.contains && flags.eraseDups.length == flags.length &&
    flags.getLast? != some '-'

namespace Mode

/-- A flag is set by a letter in front of the hyphen and cleared by one behind it. -/
def flag (flags : List Char) (letter : Char) (old : Bool) : Bool :=
  let cleared := (flags.dropWhile (· != '-')).contains letter
  flags.contains letter && !cleared || old && !cleared

def withFlags (m : Mode) (flags : List Char) : Mode where
  unicode := flag flags 'u' m.unicode
  foldsCase := flag flags 'i' m.foldsCase
  spaced := flag flags 'x' m.spaced

/-- Whether a character is to be taken with its case variants, for which there is no table. -/
def lacksVariants (m : Mode) : Bool := m.unicode && m.foldsCase

/-- Whether a character can belong to a class. -/
def admits (m : Mode) (c : Char) : Bool := m.unicode || c.toNat < 128

/-- Drops blanks, and comments up to the end of the line. -/
def skipSpace (inComment : Bool) : List Char → List Char
  | [] => []
  | c :: cs =>
    if inComment then skipSpace (c != '\n') cs
    else if c == '#' then skipSpace true cs
    else if Text.isBlank c then skipSpace false cs
    else c :: cs

def skip (m : Mode) (cs : List Char) : List Char := if m.spaced then skipSpace false cs else cs

/-- The character seen from a hyphen in a class. Of a comment only the sign that opens it is
overlooked, with blanks on both sides, so what is seen may be a part of the comment. -/
def glance? (m : Mode) (cs : List Char) : Option Char :=
  if m.spaced then
    match Text.trimStart cs with
    | '#' :: comment => (Text.trimStart comment).head?
    | cs => cs.head?
  else cs.head?

end Mode

end StreamMachine.Pattern
