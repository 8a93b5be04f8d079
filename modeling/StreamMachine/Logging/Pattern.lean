import StreamMachine.Logging.Pattern.Brackets
import StreamMachine.Text.Alphabetic

/-! Patterns for the values of fields: regular expressions, of which only the form is checked. A
pattern stands between braces, so it holds no closing brace, and what needs one is a fault. Tables
of Unicode classes and of case variants are not at hand, and what needs one is a fault too. -/
namespace StreamMachine

inductive PatternFault where
  | malformed
  /-- Well formed, but with word boundaries in the sense of Unicode. -/
  | wordBoundary
  deriving DecidableEq, Repr

def PatternFault.message : PatternFault → String
  | malformed => "error building NFA"
  | wordBoundary => "unsupported regex feature for DFAs: cannot build DFAs for regexes with " ++
      "Unicode word boundaries; switch to ASCII word boundaries, or heuristically enable " ++
      "Unicode word boundaries or use a different regex engine"

namespace Pattern

/-- A group as far as it has been read. The whole pattern is one too. -/
structure Group where
  mode : Mode := {}
  /-- The heights of the branches before the last one. -/
  branches : List Nat := []
  /-- The heights of the items of the last branch, the last first. -/
  items : List Nat := []
  /-- Whether the last item can be repeated. -/
  repeatable : Bool := false

namespace Group

def height (g : Group) : Nat := heightOf (heightOf g.items :: g.branches)

def add (g : Group) (height : Nat) : Group :=
  { g with items := height :: g.items, repeatable := true }

/-- Takes over flags, which are an item by themselves. -/
def setMode (g : Group) (mode : Mode) : Group :=
  { g with mode := mode, items := 0 :: g.items, repeatable := false }

def branch (g : Group) : Group :=
  { g with branches := heightOf g.items :: g.branches, items := [], repeatable := false }

def repeatLast? (g : Group) : Option Group :=
  match g.repeatable, g.items with
  | true, height :: items => some { g with items := (height + 1) :: items }
  | _, _ => none

end Group

/-- How far a pattern has been read. -/
structure Scan where
  /-- The innermost of the open groups. -/
  group : Group := {}
  /-- The groups around it, innermost first. -/
  outer : List Group := []
  names : List (List Char) := []
  boundary : Bool := false

namespace Scan

def mode (s : Scan) : Mode := s.group.mode

def add (s : Scan) (height : Nat) : Scan := { s with group := s.group.add height }

/-- Adds a character, which has to do without case variants. -/
def addChar? (s : Scan) : Option Scan := if s.mode.lacksVariants then none else some (s.add 0)

def addEscape? (s : Scan) : Escape → Option Scan
  | .char _ => s.addChar?
  | .wordBoundary => some { s.add 0 with boundary := true }
  | .set | .edge => some (s.add 0)

def enter (s : Scan) (mode : Mode) : Scan :=
  { s with group := { mode := mode }, outer := s.group :: s.outer }

def startsName (c : Char) : Bool := c == '_' || Text.isAlphabetic c

def continuesName (c : Char) : Bool := ['_', '.', '[', ']'].contains c || Text.isAlphanumeric c

/-- Enters a group behind the opening of its name, which no other group has. -/
def enterNamed? (s : Scan) (cs : List Char) : Option (Scan × List Char) :=
  let name := cs.takeWhile (· != '>')
  match name, cs.drop name.length with
  | c :: more, _ :: rest =>
    if startsName c && more.all continuesName && !s.names.contains name then
      some ({ s.enter s.mode with names := name :: s.names }, rest)
    else none
  | _, _ => none

/-- Enters a group behind its bracket, or takes the flags that are set in one. -/
def openGroup? (s : Scan) : List Char → Option (Scan × List Char)
  | '?' :: 'P' :: '<' :: rest | '?' :: '<' :: rest => s.enterNamed? rest
  | '?' :: rest =>
    let flags := rest.takeWhile fun c => c != ':' && c != ')'
    let mode := s.mode.withFlags flags
    match areFlags flags, rest.drop flags.length with
    | true, ':' :: rest => some (s.enter mode, rest)
    | true, ')' :: rest =>
      if flags.isEmpty then none else some ({ s with group := s.group.setMode mode }, rest)
    | _, _ => none
  | rest => some (s.enter s.mode, rest)

def closeGroup? (s : Scan) : Option Scan :=
  match s.outer with
  | [] => none
  | around :: outer =>
    some { s with group := around.add (s.group.height + 1), outer := outer }

def repeatLast? (s : Scan) : Option Scan :=
  s.group.repeatLast?.map fun group => { s with group := group }

/-- Reads one item, which is at least one character. A count in braces cannot be closed. -/
def step? (s : Scan) : List Char → Option (Scan × List Char)
  | [] => none
  | '(' :: rest => s.openGroup? (s.mode.skip rest)
  | ')' :: rest => s.closeGroup?.map fun s => (s, rest)
  | '|' :: rest => some ({ s with group := s.group.branch }, rest)
  | '[' :: rest => (class? s.mode rest).map fun (height, rest) => (s.add height, rest)
  | '\\' :: rest => do
    let (escape, rest) ← Escape.read? s.mode rest
    (s.addEscape? escape).map fun s => (s, rest)
  | '\x7b' :: _ => none
  | c :: rest =>
    if ['*', '+', '?'].contains c then
      let lazy := rest.head? == some '?'
      s.repeatLast?.map fun s => (s, if lazy then rest.drop 1 else rest)
    else if ['^', '$'].contains c then some (s.add 0, rest)
    else if c == '.' then if s.mode.unicode then some (s.add 0, rest) else none
    else s.addChar?.map fun s => (s, rest)

/-- Reads items to the end; the fuel is more than their number. -/
def run? : (fuel : Nat) → Scan → List Char → Option Scan
  | 0, s, _ => some s
  | fuel + 1, s, cs =>
    match s.mode.skip cs with
    | [] => some s
    | cs => do
      let (s, rest) ← s.step? cs
      run? fuel s rest

end Scan

/-- What is wrong with a pattern; a malformed one is noticed before its word boundaries are. -/
def fault? (pattern : List Char) : Option PatternFault :=
  match Scan.run? (pattern.length + 1) {} pattern with
  | none => some .malformed
  | some s =>
    if !s.outer.isEmpty || heightLimit < s.group.height then some .malformed
    else if s.boundary then some .wordBoundary
    else none

end Pattern

end StreamMachine
