import StreamMachine.Logging.Pattern.Escape
import StreamMachine.Logging.Pattern.Height

/-! Classes of characters, which stand in brackets that may be nested. -/
namespace StreamMachine.Pattern

/-- A pair of brackets as far as it has been read. -/
structure Brackets where
  /-- The height of what stands in front of the last operator, if there is one. -/
  operand : Option Nat := none
  /-- The heights of the items behind it, the last first. -/
  items : List Nat := []
  /-- Whether there has been nothing but hyphens. -/
  fresh : Bool := true

namespace Brackets

/-- Operators group to the left, and all of them bind alike. -/
def height (b : Brackets) : Nat :=
  b.operand.elim (heightOf b.items) fun operand => max operand (heightOf b.items) + 1

def add (b : Brackets) (height : Nat) : Brackets :=
  { b with items := height :: b.items, fresh := false }

/-- Adds characters, which have to do without case variants. -/
def addLeaf? (b : Brackets) (m : Mode) : Option Brackets :=
  if m.lacksVariants then none else some (b.add 0)

/-- Adds a hyphen with nothing but hyphens in front of it. -/
def addHyphen? (b : Brackets) (m : Mode) : Option Brackets :=
  (b.addLeaf? m).map fun b => { b with fresh := true }

def operate (b : Brackets) : Brackets := { operand := some b.height, fresh := false }

/-- What stands behind an operator at the beginning. -/
def afterOperator? : List Char → Option (List Char)
  | '&' :: '&' :: rest | '-' :: '-' :: rest | '~' :: '~' :: rest => some rest
  | _ => none

/-- A character or a set, and the character that it is if it can end a range. -/
def member? (m : Mode) : List Char → Option (Option Char × List Char)
  | [] => none
  | '\\' :: cs =>
    match Escape.read? m cs with
    | some (.char c, rest) => if m.admits c then some (some c, rest) else none
    | some (.set, rest) => some (none, rest)
    | _ => none
  | c :: cs => if m.admits c then some (some c, cs) else none

/-- What follows a member, or a range of characters. A hyphen in front of another one or of the
closing bracket makes no range. -/
def afterMember? (m : Mode) (cs : List Char) : Option (List Char) := do
  let (low, rest) ← member? m cs
  match m.skip rest with
  | '-' :: more =>
    if m.glance? more == some ']' || m.glance? more == some '-' then some ('-' :: more)
    else
      let (high, rest) ← member? m (m.skip more)
      if (← low) ≤ (← high) then some rest else none
  | rest => some rest

def classNames : List String :=
  ["alnum", "alpha", "ascii", "blank", "cntrl", "digit", "graph", "lower", "print", "punct",
   "space", "upper", "word", "xdigit"]

/-- Whether a named class such as `[:^alpha:]` is negated, and what follows it. Its first bracket
has been read. -/
def named? : List Char → Option (Bool × List Char)
  | ':' :: cs =>
    let negated := cs.head? == some '^'
    let cs := if negated then cs.drop 1 else cs
    let name := cs.takeWhile (· != ':')
    match cs.drop name.length with
    | ':' :: ']' :: rest =>
      if classNames.contains (String.ofList name) then some (negated, rest) else none
    | _ => none
  | _ => none

/-- What follows an opening bracket and the sign of a negation. The negation of a class of bytes
has more than ASCII in it. -/
def afterOpening? (m : Mode) (cs : List Char) : Option (List Char) :=
  match m.skip cs with
  | '^' :: rest => if m.unicode then some rest else none
  | rest => some rest

/-- The height of a class and what follows it, read from within its brackets. Those around them are
given with the innermost first. -/
def read? (m : Mode) :
    (fuel : Nat) → Brackets → (outer : List Brackets) → List Char → Option (Nat × List Char)
  | 0, _, _, _ => none
  | fuel + 1, b, outer, cs => do
    match m.skip cs with
    | [] => none
    | '[' :: rest =>
      match named? rest with
      | some (negated, rest) =>
        if negated && !m.unicode then none else read? m fuel (← b.addLeaf? m) outer rest
      | none => read? m fuel {} (b :: outer) (← afterOpening? m rest)
    | c :: rest =>
      if b.fresh && c == '-' then read? m fuel (← b.addHyphen? m) outer rest
      else if b.fresh && b.items.isEmpty && c == ']' then
        read? m fuel (← b.addLeaf? m) outer rest
      else if c == ']' then
        match outer with
        | [] => some (b.height + 1, rest)
        | around :: outer => read? m fuel (around.add (b.height + 1)) outer rest
      else
        match afterOperator? (c :: rest) with
        | some rest => read? m fuel b.operate outer rest
        | none => read? m fuel (← b.addLeaf? m) outer (← afterMember? m (c :: rest))

end Brackets

/-- The height of a class and what follows it, of which the first bracket has been read. -/
def class? (m : Mode) (cs : List Char) : Option (Nat × List Char) := do
  Brackets.read? m (cs.length + 1) {} [] (← Brackets.afterOpening? m cs)

end StreamMachine.Pattern
