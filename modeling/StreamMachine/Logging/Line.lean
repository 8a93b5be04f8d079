import StreamMachine.Text.Quoted
import StreamMachine.Trace

/-! How an event is written: level, enclosing instructions, target, message and fields. -/
namespace StreamMachine

structure LineStyle where
  showTargets : Bool
  colored : Bool
  deriving DecidableEq, Repr

/-- Emphasis on a terminal, by the parameter of its control sequence. -/
inductive Emphasis where
  | bold
  | dim
  | italic
  | color (number : Nat)
  deriving DecidableEq, Repr

def Emphasis.parameter : Emphasis → Nat
  | bold => 1
  | dim => 2
  | italic => 3
  | color number => 30 + number

namespace Level

def emphasis : Level → Emphasis
  | error => .color 1
  | warn => .color 3
  | info => .color 2
  | debug => .color 4
  | trace => .color 5

/-- The name of a level, five characters wide. -/
def column (level : Level) : String :=
  "".pushn ' ' (5 - level.display.length) ++ level.display

end Level

/-- A character of a message. Those that could begin a control sequence of a terminal are written
as escapes. -/
def harmless (c : Char) : List Char :=
  match c with
  | '\x07' => "\\x07".toList
  | '\x08' => "\\x08".toList
  | '\x0c' => "\\x0c".toList
  | '\x1b' => "\\x1b".toList
  | '\x7f' => "\\x7f".toList
  | _ => if 0x80 ≤ c.toNat && c.toNat ≤ 0x9f then Text.codeEscape c else [c]

def FieldValue.written : FieldValue → String
  | text value => Text.quote value
  | shown value => value
  | count value => toString value

namespace LineStyle

def paint (style : LineStyle) (emphasis : Emphasis) (text : String) : String :=
  if style.colored then s!"\x1b[{emphasis.parameter}m{text}\x1b[0m" else text

def field (style : LineStyle) (f : String × FieldValue) : String :=
  style.paint .italic f.1 ++ style.paint .dim "=" ++ f.2.written

def span (style : LineStyle) (s : Span) : String :=
  style.paint .bold s.name ++ style.paint .bold "\x7b" ++ " ".intercalate (s.fields.map style.field)
    ++ style.paint .bold "\x7d" ++ style.paint .dim ":"

def spans (style : LineStyle) : List Span → String
  | [] => ""
  | spans => String.join (spans.map style.span) ++ " "

def target (style : LineStyle) (n : Notice) : String :=
  if style.showTargets then style.paint .dim n.target ++ style.paint .dim ":" ++ " " else ""

/-- An event as it is written behind its time stamp. -/
def event (style : LineStyle) (e : Event) : String :=
  let message := String.ofList (e.notice.message.toList.flatMap harmless)
  style.paint e.notice.level.emphasis e.notice.level.column ++ " " ++ style.spans e.spans
    ++ style.target e.notice ++ " ".intercalate (message :: e.notice.fields.map style.field)

end LineStyle

end StreamMachine
