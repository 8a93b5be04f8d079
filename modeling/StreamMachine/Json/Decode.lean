import StreamMachine.Json.Skip

/-! Typed values out of the tokens of a JSON text. The first fault in the order of the text decides,
so a value is refused as soon as its first token shows that it is of another kind. -/
namespace StreamMachine.Json

/-- Reads a value off the front of the tokens. -/
abbrev Decoder (α : Type) := List Token → Except Fault (α × List Token)

/-- The value of a token that starts a value of another kind than asked for. -/
def Token.found (token : Token) : Except Fault Found :=
  match token with
  | .null => .ok .null
  | .bool value => .ok (.bool value)
  | .number text => (readNumber text).map fun r => r.1.found
  | .string text => (readString text).map fun r => .string r.1
  | .opening .list => .ok .sequence
  | .opening .object => .ok .map
  | .misspelt fault => .error fault
  | _ => .error .expectedValue

/-- The fault of finding a token where something else is expected. -/
def Token.mismatch (token : Token) (expected : String) : Fault :=
  match token.found with
  | .ok found => .invalidType found expected
  | .error fault => fault

def refuse {α : Type} (expected : String) : List Token → Except Fault α
  | [] => .error .endInValue
  | token :: _ => .error (token.mismatch expected)

def decodeString : Decoder String
  | .string text :: rest => (readString text).map fun r => (r.1, rest)
  | tokens => refuse "a string" tokens

def decodeBool : Decoder Bool
  | .bool value :: rest => .ok (value, rest)
  | tokens => refuse "a boolean" tokens

def decodeUnit : Decoder Unit
  | .null :: rest => .ok ((), rest)
  | tokens => refuse "unit" tokens

/-- A number below the bound, which belongs to the named type. -/
def decodeNat (bound : Nat) (type : String) : Decoder Nat
  | .number text :: rest => do
    match (← readNumber text).1 with
    | .integer value =>
      if 0 ≤ value ∧ value < bound then pure (value.toNat, rest)
      else throw (.invalidValue (.integer value) type)
    | number => throw (.invalidType number.found type)
  | tokens => refuse type tokens

def decodeOption {α : Type} (decoder : Decoder α) : Decoder (Option α)
  | .null :: rest => .ok (none, rest)
  | .misspelt fault :: _ => .error fault
  | tokens => (decoder tokens).map fun r => (some r.1, r.2)

/-- Whether another element follows in a list; if so the tokens are at its front, and if not they
are at the closing bracket. -/
def nextElement (isFirst : Bool) (tokens : List Token) : Except Fault (Bool × List Token) :=
  match tokens with
  | [] => .error .endInList
  | .closing .list :: _ => .ok (false, tokens)
  | .comma :: rest =>
    if isFirst then .ok (true, tokens)
    else match rest with
      | [] => .error .endInValue
      | .closing .list :: _ => .error .trailingComma
      | _ => .ok (true, rest)
  | _ => if isFirst then .ok (true, tokens) else .error .expectedListEnd

def closeList : List Token → Except Fault (List Token)
  | .closing .list :: rest => .ok rest
  | .comma :: .closing .list :: _ => .error .trailingComma
  | [] => .error .endInList
  | _ => .error .trailingCharacters

/-- Elements up to the closing bracket, as many as the fuel allows. -/
def elements {α : Type} (decoder : Decoder α) (isFirst : Bool) :
    Nat → List Token → Except Fault (List α × List Token)
  | 0, tokens => .ok ([], tokens)
  | fuel + 1, tokens => do
    let (more, tokens) ← nextElement isFirst tokens
    if more then
      let (value, tokens) ← decoder tokens
      let (values, tokens) ← elements decoder false fuel tokens
      pure (value :: values, tokens)
    else pure ([], tokens)

def decodeList {α : Type} (decoder : Decoder α) : Decoder (List α)
  | .opening .list :: rest => do
    let (values, rest) ← elements decoder true (rest.length + 1) rest
    pure (values, ← closeList rest)
  | tokens => refuse "a sequence" tokens

/-- Whether another entry follows in an object, as `nextElement` does for lists. -/
def nextEntry (isFirst : Bool) (tokens : List Token) : Except Fault (Bool × List Token) :=
  match tokens with
  | [] => .error .endInObject
  | .closing .object :: _ => .ok (false, tokens)
  | .string _ :: _ => if isFirst then .ok (true, tokens) else .error .expectedObjectEnd
  | .comma :: rest =>
    if isFirst then .error .keyNotString
    else match rest with
      | [] => .error .endInValue
      | .string _ :: _ => .ok (true, rest)
      | .closing .object :: _ => .error .trailingComma
      | _ => .error .keyNotString
  | _ => if isFirst then .error .keyNotString else .error .expectedObjectEnd

def takeColon : List Token → Except Fault (List Token)
  | .colon :: rest => .ok rest
  | [] => .error .endInObject
  | _ => .error .expectedColon

def closeObject : List Token → Except Fault (List Token)
  | .closing .object :: rest => .ok rest
  | .comma :: _ => .error .trailingComma
  | [] => .error .endInObject
  | _ => .error .trailingCharacters

/-- A record under construction: how one field takes its value, and what stands for a field that
the text leaves out. -/
structure RecordFormat (σ α : Type) where
  /-- What the record calls itself when something else is found. -/
  expected : String
  /-- Field names in the order of declaration. -/
  fields : List String
  start : σ
  /-- Whether the named field has its value. -/
  has : String → σ → Bool
  /-- Reads the value of a field. -/
  read : String → σ → Decoder σ
  /-- Completes a record from an object. -/
  finish : σ → Except Fault α
  /-- Completes a record from a list with the given number of elements. -/
  finishList : Nat → σ → Except Fault α

variable {σ α : Type}

/-- Entries up to the closing brace. Entries of other names are passed over, and a known name may
come only once. -/
def entries (format : RecordFormat σ α) (isFirst : Bool) :
    Nat → σ → List Token → Except Fault (σ × List Token)
  | 0, state, tokens => .ok (state, tokens)
  | fuel + 1, state, tokens => do
    let (more, tokens) ← nextEntry isFirst tokens
    if more then
      let (key, tokens) ← decodeString tokens
      if format.fields.contains key then
        if format.has key state then throw (.duplicateField key)
        let (state, tokens) ← format.read key state (← takeColon tokens)
        entries format false fuel state tokens
      else
        entries format false fuel state (← skipValue (← takeColon tokens))
    else pure (state, tokens)

/-- Fields by position until the list or the fields end; counts those that were there. -/
def positional (format : RecordFormat σ α) (isFirst : Bool) :
    List String → σ → List Token → Except Fault (Nat × σ × List Token)
  | [], state, tokens => .ok (0, state, tokens)
  | field :: fields, state, tokens => do
    let (more, tokens) ← nextElement isFirst tokens
    if more then
      let (state, tokens) ← format.read field state tokens
      let (count, state, tokens) ← positional format false fields state tokens
      pure (count + 1, state, tokens)
    else pure (0, state, tokens)

/-- A record is an object, or a list of its fields in the order of declaration. -/
def decodeRecord (format : RecordFormat σ α) : Decoder α
  | .opening .object :: rest => do
    let (state, rest) ← entries format true (rest.length + 1) format.start rest
    let value ← format.finish state
    pure (value, ← closeObject rest)
  | .opening .list :: rest => do
    let (count, state, rest) ← positional format true format.fields format.start rest
    let value ← format.finishList count state
    pure (value, ← closeList rest)
  | tokens => refuse format.expected tokens

/-- The only key of an object whose brace has been read; the object may not be empty. -/
def decodeOnlyKey : Decoder String
  | [] => .error .endInObject
  | .string text :: rest => (readString text).map fun r => (r.1, rest)
  | .closing .object :: _ => .error .expectedValue
  | _ => .error .keyNotString

/-- One of a set of words, written as a string or as the only key of an object over null. -/
def decodeVariant {β : Type} (known : List (String × β)) : Decoder β :=
  let pick (name : String) : Except Fault β :=
    match known.lookup name with
    | some value => .ok value
    | none => .error (.unknownVariant name (known.map Prod.fst))
  fun
  | .string text :: rest => do
    let (name, _) ← readString text
    pure (← pick name, rest)
  | .opening .object :: rest => do
    let (name, rest) ← decodeOnlyKey rest
    let value ← pick name
    let (_, rest) ← decodeUnit (← takeColon rest)
    match rest with
    | .closing .object :: rest => pure (value, rest)
    | [] => throw .endInObject
    | _ => throw .expectedValue
  | [] => .error .endInValue
  | _ => .error .expectedValue

/-- Decodes a whole text, behind which nothing may follow. -/
def decodeText {β : Type} (decoder : Decoder β) (text : String) : Except Fault β := do
  let (value, rest) ← decoder (tokens text)
  if rest.isEmpty then pure value else throw .trailingCharacters

end StreamMachine.Json
