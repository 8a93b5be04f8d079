/-! Heights of the parts of a pattern: how deep one is nested in another. -/
namespace StreamMachine.Pattern

/-- The height of parts side by side. A part alone is no nesting, and neither is none at all. -/
def heightOf : List Nat → Nat
  | [] => 0
  | [height] => height
  | heights => heights.foldl max 0 + 1

/-- Patterns of a greater height are refused. -/
def heightLimit : Nat := 250

end StreamMachine.Pattern
