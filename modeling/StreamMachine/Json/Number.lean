import StreamMachine.Decimal.Shortest
import StreamMachine.Json.Fault

/-! Numbers of JSON. Integers that fit a 64-bit word, signed or not, stay exact; all others become
64-bit floats through a 64-bit significand and a power of ten. -/
namespace StreamMachine.Json

inductive Number where
  | integer (value : Int)
  | float (value : Float)

/-- Floats are written with a point from 0.00001 up to sixteen digits in front of it, and with an
exponent behind its sign beyond. -/
def floatNotation : Decimal.Notation := ⟨-4, 16⟩

def Number.found : Number → Found
  | .integer value => .integer value
  | .float value => .float (Decimal.render floatNotation value)

def digitValue (c : Char) : Nat := c.toNat - 48

def startsWithDigit : List Char → Bool
  | c :: _ => c.isDigit
  | [] => false

/-- The fault of a place where a digit has to stand and does not. -/
def digitFault : List Char → Fault
  | [] => .endInValue
  | _ => .invalidNumber

/-- A number split into its parts, all of them digits only. -/
structure Lexeme where
  negative : Bool
  whole : List Char
  fraction : Option (List Char)
  exponent : Option (Bool × List Char)

def takeWhole (cs : List Char) : Except Fault (List Char × List Char) :=
  match cs with
  | '0' :: rest => if startsWithDigit rest then .error .invalidNumber else .ok (['0'], rest)
  | _ =>
    if startsWithDigit cs then .ok (cs.takeWhile Char.isDigit, cs.dropWhile Char.isDigit)
    else .error (digitFault cs)

def takeFraction (cs : List Char) : Except Fault (Option (List Char) × List Char) :=
  match cs with
  | '.' :: rest =>
    if startsWithDigit rest then
      .ok (some (rest.takeWhile Char.isDigit), rest.dropWhile Char.isDigit)
    else .error (digitFault rest)
  | _ => .ok (none, cs)

def takeSign (cs : List Char) : Bool × List Char :=
  match cs with
  | '+' :: rest => (false, rest)
  | '-' :: rest => (true, rest)
  | _ => (false, cs)

def takeExponent (cs : List Char) : Except Fault (Option (Bool × List Char) × List Char) :=
  match cs with
  | 'e' :: rest | 'E' :: rest =>
    let (negative, digits) := takeSign rest
    if startsWithDigit digits then
      .ok (some (negative, digits.takeWhile Char.isDigit), digits.dropWhile Char.isDigit)
    else .error (digitFault digits)
  | _ => .ok (none, cs)

/-- Splits the number at the front of a text from what follows it. -/
def takeNumber (cs : List Char) : Except Fault (Lexeme × List Char) := do
  let (negative, cs) := match cs with
    | '-' :: rest => (true, rest)
    | _ => (false, cs)
  let (whole, cs) ← takeWhole cs
  let (fraction, cs) ← takeFraction cs
  let (exponent, cs) ← takeExponent cs
  pure (⟨negative, whole, fraction, exponent⟩, cs)

/-- Passing over a number never blames the end of the text. -/
def skipNumber (cs : List Char) : Except Fault (List Char) :=
  match takeNumber cs with
  | .ok (_, rest) => .ok rest
  | .error _ => .error .invalidNumber

def significandBound : Nat := UInt64.size

/-- Adds digits to a significand until one no longer fits; the first that does not fit and all
behind it are returned. -/
def accumulate (significand : Nat) : List Char → Nat × List Char
  | [] => (significand, [])
  | c :: rest =>
    let next := significand * 10 + digitValue c
    if next < significandBound then accumulate next rest else (significand, c :: rest)

def powerOfTen (n : Nat) : Float := Float.ofScientific 1 false n

/-- `significand * 10 ^ exponent` with one rounding for the significand and one for each factor of
at most `10 ^ 308`; the fuel counts such factors. -/
def scale (fuel : Nat) (value : Float) (exponent : Int) : Except Fault Float :=
  if exponent.natAbs ≤ 308 then
    if 0 ≤ exponent then
      let product := value * powerOfTen exponent.natAbs
      if product.isInf then .error .numberOutOfRange else .ok product
    else .ok (value / powerOfTen exponent.natAbs)
  else if value == 0 then .ok value
  else if 0 ≤ exponent then .error .numberOutOfRange
  else match fuel with
    | 0 => .ok value
    | fuel + 1 => scale fuel (value / powerOfTen 308) (exponent + 308)

def exponentBound : Nat := UInt32.size / 2

/-- Exponents are kept in a signed word of 32 bits and stay at its ends. -/
def clampExponent (e : Int) : Int := max (-(exponentBound : Int)) (min e (exponentBound - 1))

def applySign (negative : Bool) (value : Float) : Float := if negative then -value else value

def floatValue (negative : Bool) (significand : Nat) (shift : Int)
    (exponent : Option (Bool × List Char)) : Except Fault Number := do
  let scaled (e : Int) := do
    pure (.float (applySign negative (← scale 8 (Float.ofNat significand) e)))
  match exponent with
  | none => scaled shift
  | some (below, digits) =>
    let power := digits.foldl (fun n c => n * 10 + digitValue c) 0
    if power < exponentBound then
      scaled (clampExponent (if below then shift - power else shift + power))
    else if significand != 0 && !below then .error .numberOutOfRange
    else pure (.float (applySign negative 0))

/-- The value of a number. Digits of the whole part that do not fit the significand count as powers
of ten; from the first digit of the fraction that does not fit, all are passed by. -/
def Lexeme.value (x : Lexeme) : Except Fault Number :=
  let (whole, excess) := accumulate 0 x.whole
  match x.fraction with
  | some fraction =>
    let (significand, lost) := accumulate whole fraction
    let kept := fraction.length - lost.length
    floatValue x.negative significand (excess.length - kept) x.exponent
  | none =>
    if excess.isEmpty && x.exponent.isNone then
      if !x.negative then .ok (.integer whole)
      else if 0 < whole && whole ≤ UInt64.size / 2 then .ok (.integer (-whole))
      else .ok (.float (-(Float.ofNat whole)))
    else floatValue x.negative whole excess.length x.exponent

def readNumber (cs : List Char) : Except Fault (Number × List Char) := do
  let (lexeme, rest) ← takeNumber cs
  pure (← lexeme.value, rest)

end StreamMachine.Json
