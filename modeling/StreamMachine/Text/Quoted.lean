import StreamMachine.Text.Invisible

/-! Quoted text for diagnostics: one line, between double quotes, with every quote, backslash and
invisible character written as an escape. -/
namespace StreamMachine.Text

/-- A code point in lower-case hexadecimal digits, between braces. -/
def codeEscape (c : Char) : List Char :=
  ['\\', 'u', '\x7b'] ++ Nat.toDigits 16 c.toNat ++ ['\x7d']

/-- How one character is written between quotes. -/
def escape (c : Char) : List Char :=
  match c with
  | '\x00' => ['\\', '0']
  | '\t' => ['\\', 't']
  | '\r' => ['\\', 'r']
  | '\n' => ['\\', 'n']
  | '\\' => ['\\', '\\']
  | '"' => ['\\', '"']
  | _ => if isInvisible c then codeEscape c else [c]

def quote (s : String) : String := String.ofList ('"' :: s.toList.flatMap escape ++ ['"'])

/-- A single character stands between apostrophes, which then take the escape in place of the double
quote. -/
def quoteChar (c : Char) : String :=
  String.ofList ('\x27' ::
    (if c = '\x27' then ['\\', c] else if c = '"' then [c] else escape c) ++ ['\x27'])

end StreamMachine.Text
