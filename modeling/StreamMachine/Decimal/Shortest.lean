/-! The decimal of fewest digits that reads back as a given binary floating-point number. -/
namespace StreamMachine.Decimal

/-- A positive value `significand * 2 ^ exponent`. -/
structure Binary where
  significand : Nat
  exponent : Int
  /-- The next number below is only half as far away as the next above. -/
  lowerIsNear : Bool

/-- The number `0.d₁d₂d₃… * 10 ^ point`. -/
structure Digits where
  digits : List Char
  point : Int

/-- The 64-bit float with the given bit pattern, without its sign. -/
def Binary.ofBits (bits : UInt64) : Binary :=
  let fraction := (bits &&& 0xfffffffffffff).toNat
  let biased := (bits >>> 52 &&& 0x7ff).toNat
  if biased = 0 then ⟨fraction, -1074, false⟩
  else ⟨fraction + 0x10000000000000, (biased : Int) - 1075, fraction = 0 && 1 < biased⟩

/-- The value in quarters of its last place, over a power of two. -/
def Binary.quarters (x : Binary) : Nat × Nat :=
  let e := x.exponent - 2
  ((4 * x.significand) <<< e.toNat, 1 <<< (-e).toNat)

/-- Whether `num / den` rounds to the given number, an even significand winning ties. -/
def Binary.readsBack (x : Binary) (num den : Nat) : Bool :=
  let e := x.exponent - 2
  let low := 4 * x.significand - (if x.lowerIsNear then 1 else 2)
  let high := 4 * x.significand + 2
  let scaled := num <<< (-e).toNat
  let bound (b : Nat) := (b * den) <<< e.toNat
  if x.significand % 2 = 0 then bound low ≤ scaled && scaled ≤ bound high
  else bound low < scaled && scaled < bound high

/-- The `n` with `10 ^ n ≤ value < 10 ^ (n + 1)`, for the range of 64-bit floats. -/
def Binary.decimalExponent (x : Binary) : Int :=
  let (num, den) := x.quarters
  ((Nat.toDigits 10 (num * Nat.pow 10 400 / den)).length : Int) - 401

/-- The better of the two neighbours with the given number of digits, if one reads back. -/
def Binary.candidate? (x : Binary) (precision : Nat) : Option (Nat × Int) :=
  let step := x.decimalExponent - (precision - 1 : Nat)
  let (num, den) := x.quarters
  let unitNum := Nat.pow 10 step.toNat
  let unitDen := Nat.pow 10 (-step).toNat
  let below := num * unitDen / (den * unitNum)
  let hit (n : Nat) : Bool := x.readsBack (n * unitNum) unitDen
  -- twice the distance above the lower neighbour, against one unit
  let rest := 2 * (num * unitDen - below * (den * unitNum))
  let preferUpper : Bool := den * unitNum < rest || (rest == den * unitNum && below % 2 == 1)
  match hit below, hit (below + 1) with
  | true, true => some (if preferUpper then below + 1 else below, step)
  | true, false => some (below, step)
  | false, true => some (below + 1, step)
  | false, false => none

def dropTrailingZeros (digits : List Char) : List Char :=
  (digits.reverse.dropWhile (· == '0')).reverse

/-- Tries one digit, then two, up to seventeen, which always suffice. -/
def Binary.shortest (x : Binary) : Digits :=
  match (List.range 17).findSome? fun k => x.candidate? (k + 1) with
  | some (n, step) =>
    let digits := Nat.toDigits 10 n
    ⟨dropTrailingZeros digits, step + digits.length⟩
  | none => ⟨[], 0⟩

/-- Where positional notation ends, by the place of the point among the digits. -/
structure Notation where
  leastPoint : Int
  greatestPoint : Int

def zeros (n : Nat) : List Char := List.replicate n '0'

/-- An exponent behind its sign, which is never left out. -/
def exponentText (e : Int) : List Char :=
  (if e < 0 then '-' else '+') :: Nat.toDigits 10 e.natAbs

/-- A fraction or an exponent is always present. -/
def Digits.render (style : Notation) (x : Digits) : List Char :=
  let size := x.digits.length
  if style.leastPoint ≤ x.point && x.point ≤ style.greatestPoint then
    if x.point ≤ 0 then '0' :: '.' :: zeros x.point.natAbs ++ x.digits
    else
      let whole := x.point.toNat
      if size ≤ whole then x.digits ++ zeros (whole - size) ++ ['.', '0']
      else x.digits.take whole ++ '.' :: x.digits.drop whole
  else
    let mantissa := match x.digits with
      | [] => ['0']
      | [d] => [d]
      | d :: ds => d :: '.' :: ds
    mantissa ++ 'e' :: exponentText (x.point - 1)

/-- A finite 64-bit float in shortest form, its sign kept also on zero. -/
def render (style : Notation) (x : Float) : String :=
  let bits := x.toBits
  let sign := if bits >>> 63 = 1 then ['-'] else []
  let body := if bits <<< 1 = 0 then ['0', '.', '0']
    else ((Binary.ofBits bits).shortest).render style
  String.ofList (sign ++ body)

end StreamMachine.Decimal
