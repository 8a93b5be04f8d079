import StreamMachine.Json.Token

/-! Passing over a value of any kind, to any depth. -/
namespace StreamMachine.Json

/-- What a value that is passed over goes on with. -/
inductive Awaited where
  | value
  /-- Directly behind an opening bracket. -/
  | first
  /-- Directly behind a value. -/
  | next
  | key
  | colon
  deriving DecidableEq, Repr

def Bracket.endFault : Bracket → Fault
  | .list => .endInList
  | .object => .endInObject

def Bracket.separatorFault : Bracket → Fault
  | .list => .expectedListEnd
  | .object => .expectedObjectEnd

/-- What stands at the front of each item. -/
def Bracket.item : Bracket → Awaited
  | .list => .value
  | .object => .key

/-- Fault of a token that is passed over where a value starts, if it has one. -/
def Token.skipFault? : Token → Option Fault
  | .number text => match skipNumber text with
    | .ok _ => none
    | .error fault => some fault
  | .string text => match skipString text with
    | .ok _ => none
    | .error fault => some fault
  | .misspelt fault => some fault
  | .null | .bool _ => none
  | _ => some .expectedValue

/-- What a token that starts a value makes of the open brackets. -/
def startValue (open_ : List Bracket) (token : Token) : Except Fault (List Bracket × Awaited) :=
  match token with
  | .opening b => .ok (b :: open_, .first)
  | _ => match token.skipFault? with
    | some fault => .error fault
    | none => .ok (open_, .next)

def startKey (open_ : List Bracket) (token : Token) : Except Fault (List Bracket × Awaited) :=
  match token with
  | .string _ => match token.skipFault? with
    | some fault => .error fault
    | none => .ok (open_, .colon)
  | _ => .error .keyNotString

/-- One token further, inside the innermost open bracket. -/
def advanceSkip (open_ : List Bracket) (awaited : Awaited) (token : Token) :
    Except Fault (List Bracket × Awaited) :=
  match open_, awaited with
  | _, .value => startValue open_ token
  | _, .key => startKey open_ token
  | _, .colon => if token = .colon then .ok (open_, .value) else .error .expectedColon
  | [], _ => startValue open_ token
  | b :: outer, .first =>
    if token = .closing b then .ok (outer, .next)
    else match b with
      | .list => startValue open_ token
      | .object => startKey open_ token
  | b :: outer, .next =>
    if token = .comma then .ok (open_, b.item)
    else if token = .closing b then .ok (outer, .next)
    else .error b.separatorFault

def endFault (open_ : List Bracket) (awaited : Awaited) : Fault :=
  match awaited, open_ with
  | .value, _ | _, [] => .endInValue
  | .key, _ | .colon, _ => .endInObject
  | _, b :: _ => b.endFault

/-- The tokens behind the value that is being passed over. -/
def skipFrom (open_ : List Bracket) (awaited : Awaited) :
    List Token → Except Fault (List Token)
  | [] => if open_ = [] ∧ awaited = .next then .ok [] else .error (endFault open_ awaited)
  | token :: rest =>
    if open_ = [] ∧ awaited = .next then .ok (token :: rest)
    else do
      let (open_, awaited) ← advanceSkip open_ awaited token
      skipFrom open_ awaited rest

def skipValue (tokens : List Token) : Except Fault (List Token) := skipFrom [] .value tokens

end StreamMachine.Json
