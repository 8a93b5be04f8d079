import StreamMachine.Json.Number
import StreamMachine.Json.StringLiteral

/-! The tokens of a JSON text. Strings and numbers keep the text they start, because how strictly
one is read depends on whether anybody asks for its value. -/
namespace StreamMachine.Json

inductive Bracket where
  | list
  | object
  deriving DecidableEq, Repr

inductive Token where
  | opening (bracket : Bracket)
  | closing (bracket : Bracket)
  | comma
  | colon
  | null
  | bool (value : Bool)
  /-- A number, with the text from its first character on. -/
  | number (text : List Char)
  /-- A string, with the text behind its opening quote. -/
  | string (text : List Char)
  /-- A word that begins like `null`, `true` or `false` and is none of them. -/
  | misspelt (fault : Fault)
  | stray
  deriving DecidableEq, Repr

def isSpace (c : Char) : Bool := c == ' ' || c == '\n' || c == '\t' || c == '\r'

/-- Takes the letters of a word whose first letter has been seen. -/
def takeWord : List Char → List Char → Except Fault (List Char)
  | [], rest => .ok rest
  | _ :: _, [] => .error .endInValue
  | l :: ls, c :: cs => if l = c then takeWord ls cs else .error .expectedIdent

def wordToken (token : Token) (letters rest : List Char) : Token × List Char :=
  match takeWord letters rest with
  | .ok rest => (token, rest)
  | .error fault => (.misspelt fault, [])

def restOr (skipped : Except Fault (List Char)) : List Char :=
  match skipped with
  | .ok rest => rest
  | .error _ => []

/-- The token that starts with the given character, and the text after it. Nothing is left after a
token that cannot be passed over. -/
def nextToken (c : Char) (rest : List Char) : Token × List Char :=
  match c with
  | '[' => (.opening .list, rest)
  | ']' => (.closing .list, rest)
  | '\x7b' => (.opening .object, rest)
  | '\x7d' => (.closing .object, rest)
  | ',' => (.comma, rest)
  | ':' => (.colon, rest)
  | 'n' => wordToken .null ['u', 'l', 'l'] rest
  | 't' => wordToken (.bool true) ['r', 'u', 'e'] rest
  | 'f' => wordToken (.bool false) ['a', 'l', 's', 'e'] rest
  | '"' => (.string rest, restOr (skipString rest))
  | _ =>
    if c == '-' || c.isDigit then (.number (c :: rest), restOr (skipNumber (c :: rest)))
    else (.stray, rest)

/-- Tokens of a text, as many as the fuel allows; every token takes a character at least. -/
def tokensFrom : Nat → List Char → List Token
  | 0, _ => []
  | fuel + 1, cs =>
    match cs.dropWhile isSpace with
    | [] => []
    | c :: rest =>
      let (token, rest) := nextToken c rest
      token :: tokensFrom fuel rest

def tokens (text : String) : List Token := tokensFrom text.toList.length text.toList

end StreamMachine.Json
