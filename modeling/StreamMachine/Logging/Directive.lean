import StreamMachine.Logging.LevelLimit
import StreamMachine.Logging.Pattern

/-! One directive of a filter: a level, a target, or both. A scope in brackets, which would restrict
it to the inside of spans, is read for what is wrong with it. -/
namespace StreamMachine

inductive FilterError where
  | directive
  | level
  | field (fault : PatternFault)
  deriving DecidableEq, Repr

def FilterError.message : FilterError → String
  | directive => "invalid filter directive"
  | level => "error parsing level filter: expected one of \"off\", \"error\", \"warn\", " ++
      "\"info\", \"debug\", \"trace\", or a number 0-5"
  | field fault => "invalid field filter: " ++ fault.message

/-- Why a text is no filter: it is wrong, or reading it panics. -/
inductive FilterFault where
  | wrong (error : FilterError)
  | panicked (panic : Panic)
  deriving DecidableEq, Repr

structure Directive where
  /-- What a target has to begin with, unless the directive is for every target. -/
  target : Option (List Char)
  limit : LevelLimit
  deriving DecidableEq, Repr

namespace Directive

def startsTarget (c : Char) : Bool := c == '-' || c == ':' || c == '_' || Text.isAlphanumeric c

def endsTarget (c : Char) : Bool := c == '=' || c == '['

/-- A word that is no level is a target, of which everything is let through. -/
def ofWord (word : List Char) : Directive :=
  match LevelLimit.parse? word with
  | some limit => ⟨none, limit⟩
  | none => ⟨some word, some .trace⟩

/-- The limit behind an equals sign, where nothing stands for everything. -/
def limitOf (level : List Char) : Except FilterFault LevelLimit :=
  if level.isEmpty then .ok (some .trace)
  else match LevelLimit.parse? level with
    | some limit => .ok limit
    | none => .error (.wrong .level)

/-- Whether a text is a number in decimal digits, with a fraction or an exponent perhaps. -/
def isNumeral (text : List Char) : Bool :=
  let whole := text.takeWhile Char.isDigit
  let (fraction, rest) := match text.drop whole.length with
    | '.' :: rest => (rest.takeWhile Char.isDigit, rest.dropWhile Char.isDigit)
    | rest => ([], rest)
  !(whole ++ fraction).isEmpty && match rest with
    | [] => true
    | mark :: exponent =>
      let digits := match exponent with
        | '+' :: digits | '-' :: digits => digits
        | digits => digits
      (mark == 'e' || mark == 'E') && !digits.isEmpty && digits.all Char.isDigit

/-- Names of the numbers that digits do not reach. -/
def isLimitName (text : List Char) : Bool :=
  ["inf", "infinity", "nan"].contains (String.ofList (text.map Char.toLower))

/-- A value is a number or a pattern. Only with a plus sign in front is a number no pattern. -/
def valueFault? (value : List Char) : Option PatternFault :=
  match value with
  | '+' :: number => if isNumeral number || isLimitName number then none else Pattern.fault? value
  | _ => Pattern.fault? value

/-- A field has a name, and perhaps a value between an equals sign and the next one. -/
def checkField (field : List Char) : Except FilterFault Unit :=
  match field.dropWhile (· != '=') with
  | [] => if field.isEmpty then .error (.wrong .directive) else .ok ()
  | _ :: value =>
    match valueFault? (value.takeWhile (· != '=')) with
    | none => .ok ()
    | some fault => .error (.wrong (.field fault))

/-- The text of a directive, and what the blanks at both ends leave of it. The parts of a directive
are found in what is left, but cut out of the text at the same byte positions. -/
structure Source where
  text : List Char
  found : List Char

namespace Source

def ofText (text : List Char) : Source := ⟨text, Text.trimEnd (Text.trimStart text)⟩

/-- The byte position at which a rest of what was found begins. -/
def place (s : Source) (rest : List Char) : Nat := Text.byteSize s.found - Text.byteSize rest

def cut (s : Source) (front back : Nat) : Except FilterFault (List Char) :=
  (Text.piece s.text front back).mapError fun fault => .panicked (.piece fault)

/-- The part between two rests. -/
def between (s : Source) (front back : List Char) : Except FilterFault (List Char) :=
  s.cut (s.place front) (s.place back)

/-- The limit in the part from a rest on, to the end of the whole text. -/
def limit (s : Source) (rest : List Char) : Except FilterFault LevelLimit := do
  limitOf (← s.cut (s.place rest) (Text.byteSize s.text))

/-- What follows the scope whose braces have been opened around a field, which is checked. -/
def afterField (s : Source) (field : List Char) : Except FilterFault (List Char) := do
  let brace := field.dropWhile (· != '\x7d')
  if brace.isEmpty then throw (.wrong .directive)
  checkField (← s.between field brace)
  match brace with
  | _ :: ']' :: rest => pure rest
  | _ => throw (.wrong .directive)

/-- What follows a scope, which names a span, a field in braces, or both. -/
def afterScope (s : Source) (scope : List Char) : Except FilterFault (List Char) := do
  let bracket := scope.dropWhile fun c => c != ']' && c != '\x7b'
  if bracket.isEmpty then throw (.wrong .directive)
  discard (s.between scope bracket)
  match bracket with
  | '\x7b' :: field => s.afterField field
  | _ => pure (bracket.drop 1)

/-- Checks a scope whose bracket has been opened, and the level that it may have. -/
def checkScope (s : Source) (scope : List Char) : Except FilterFault Unit := do
  match ← s.afterScope scope with
  | [] => pure ()
  | '=' :: level => discard (s.limit level)
  | _ => throw (.wrong .directive)

end Source

/-- Reads one directive. One for the inside of a span is checked and has no effect. -/
def parse (text : List Char) : Except FilterFault (Option Directive) :=
  let s := Source.ofText text
  match s.found with
  | [] => .error (.wrong .directive)
  | '[' :: scope => (s.checkScope scope).map fun _ => none
  | c :: _ =>
    if startsTarget c then
      let rest := s.found.dropWhile (!endsTarget ·)
      match rest with
      | [] => .ok (some (ofWord text))
      | '[' :: scope => do
        discard (s.between s.found rest)
        s.checkScope scope
        pure none
      | _ :: level => do
        let target ← s.between s.found rest
        pure (some ⟨some target, ← s.limit level⟩)
    else .error (.wrong .directive)

def covers (d : Directive) (target : List Char) : Bool :=
  d.target.elim true fun start => start.isPrefixOf target

/-- A longer target is more specific, and none at all is the least. -/
def specificity (d : Directive) : Nat := d.target.elim 0 fun start => start.length + 1

end Directive

end StreamMachine
