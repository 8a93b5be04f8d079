import StreamMachine.Json.Fault
import StreamMachine.Text.Hex
import StreamMachine.Text.Piece

/-! String literals of JSON: writing one, reading one, and passing over one without decoding it. -/
namespace StreamMachine.Json

def hexDigits (n width : Nat) : List Char :=
  let digits := Nat.toDigits 16 n
  List.replicate (width - digits.length) '0' ++ digits

/-- How one character is written in a string literal. -/
def escape (c : Char) : List Char :=
  match c with
  | '"' => ['\\', '"']
  | '\\' => ['\\', '\\']
  | '\x08' => ['\\', 'b']
  | '\x0c' => ['\\', 'f']
  | '\n' => ['\\', 'n']
  | '\r' => ['\\', 'r']
  | '\t' => ['\\', 't']
  | _ => if c.toNat < 0x20 then ['\\', 'u'] ++ hexDigits c.toNat 4 else [c]

def writeString (s : String) : List Char := '"' :: s.toList.flatMap escape ++ ['"']

/-- The character that a backslash and the given letter stand for. -/
def simpleEscape? : Char → Option Char
  | '"' => some '"'
  | '\\' => some '\\'
  | '/' => some '/'
  | 'b' => some '\x08'
  | 'f' => some '\x0c'
  | 'n' => some '\n'
  | 'r' => some '\r'
  | 't' => some '\t'
  | _ => none

/-- The fault of a `\u` whose four hexadecimal digits are not there: an early end if fewer than
four bytes are left, whatever they hold. -/
def hexFault (rest : List Char) : Fault :=
  if Text.byteSize (rest.take 4) < 4 then .endInString else .invalidEscape

def isHighSurrogate (n : Nat) : Bool := 0xd800 ≤ n && n ≤ 0xdbff

def isLowSurrogate (n : Nat) : Bool := 0xdc00 ≤ n && n ≤ 0xdfff

def joinSurrogates (high low : Nat) : Char :=
  Char.ofNat ((high - 0xd800) * 0x400 + (low - 0xdc00) + 0x10000)

def hexUnit? (a b c d : Char) : Option Nat := Text.hexNumber? [a, b, c, d]

/-- What comes of a character and the text behind it. -/
def consChar (c : Char) (rest : Except Fault (List Char × List Char)) :
    Except Fault (List Char × List Char) :=
  rest.map fun r => (c :: r.1, r.2)

/-- Reads up to the closing quote; the opening one has been taken. A high surrogate that has been
read and still waits for its other half is passed along. -/
def readChars : Option Nat → List Char → Except Fault (List Char × List Char)
  | _, [] => .error .endInString
  | some _, '\\' :: [] => .error .endInString
  | some high, '\\' :: 'u' :: a :: b :: c :: d :: rest =>
    match hexUnit? a b c d with
    | none => .error (hexFault (a :: b :: c :: d :: rest))
    | some low =>
      if isLowSurrogate low then consChar (joinSurrogates high low) (readChars none rest)
      else .error .loneSurrogate
  | some _, '\\' :: 'u' :: rest => .error (hexFault rest)
  | some _, _ => .error .hexEscapeEnd
  | none, '"' :: rest => .ok ([], rest)
  | none, '\\' :: [] => .error .endInString
  | none, '\\' :: 'u' :: a :: b :: c :: d :: rest =>
    match hexUnit? a b c d with
    | none => .error (hexFault (a :: b :: c :: d :: rest))
    | some unit =>
      if isLowSurrogate unit then .error .loneSurrogate
      else if isHighSurrogate unit then readChars (some unit) rest
      else consChar (Char.ofNat unit) (readChars none rest)
  | none, '\\' :: 'u' :: rest => .error (hexFault rest)
  | none, '\\' :: e :: rest =>
    match simpleEscape? e with
    | some c => consChar c (readChars none rest)
    | none => .error .invalidEscape
  | none, c :: rest =>
    if c.toNat < 0x20 then .error .controlCharacter else consChar c (readChars none rest)

def readString (cs : List Char) : Except Fault (String × List Char) :=
  (readChars none cs).map fun r => (String.ofList r.1, r.2)

/-- Finds what follows the closing quote. Escapes have to be well formed, but halves of surrogate
pairs may stand alone. -/
def skipString : List Char → Except Fault (List Char)
  | [] => .error .endInString
  | '"' :: rest => .ok rest
  | '\\' :: [] => .error .endInString
  | '\\' :: 'u' :: a :: b :: c :: d :: rest =>
    if (hexUnit? a b c d).isSome then skipString rest
    else .error (hexFault (a :: b :: c :: d :: rest))
  | '\\' :: 'u' :: rest => .error (hexFault rest)
  | '\\' :: e :: rest =>
    if (simpleEscape? e).isSome then skipString rest else .error .invalidEscape
  | c :: rest => if c.toNat < 0x20 then .error .controlCharacter else skipString rest

end StreamMachine.Json
