import StreamMachine.Trace

/-! Limits on the levels of events, by name or by number. -/
namespace StreamMachine

/-- The most verbose level that is let through, if any is. -/
abbrev LevelLimit := Option Level

namespace LevelLimit

def admits (limit : LevelLimit) (level : Level) : Bool := limit.any fun l => level.rank ≤ l.rank

/-- Limits in the order of the numbers that stand for them. -/
def all : List LevelLimit :=
  [none, some .error, some .warn, some .info, some .debug, some .trace]

def name : LevelLimit → String
  | none => "OFF"
  | some level => level.display

/-- A number in decimal digits, perhaps behind a plus sign. -/
def number? (text : List Char) : Option Nat :=
  let digits := match text with
    | '+' :: rest => rest
    | _ => text
  if digits.isEmpty || digits.any (!·.isDigit) then none
  else some (digits.foldl (fun n c => 10 * n + (c.toNat - '0'.toNat)) 0)

/-- Reads a number up to 5, or a name in any case. -/
def parse? (text : List Char) : Option LevelLimit :=
  match number? text with
  | some n => all[n]?
  | none => all.find? fun limit => limit.name.toList == text.map Char.toUpper

end LevelLimit

end StreamMachine
