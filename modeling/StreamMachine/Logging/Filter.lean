import StreamMachine.Logging.Directive

/-! Filters of diagnostic output, which are comma lists of directives. Of those whose target begins
the target at hand, the one with the longest target decides. -/
namespace StreamMachine

abbrev Filter := List Directive

namespace Filter

/-- Reads a comma list; empty items do not count. -/
def parse (text : String) : Except FilterFault Filter :=
  (((text.splitOn ",").filter (!·.isEmpty)).mapM fun item => Directive.parse item.toList).map
    fun directives => directives.filterMap id

/-- The more specific of two directives, the later one if both are for the same target. -/
def stronger (earlier : Option Directive) (later : Directive) : Option Directive :=
  match earlier with
  | none => some later
  | some d => if d.specificity ≤ later.specificity then some later else some d

/-- The directive that decides for a target. -/
def decisive? (filter : Filter) (target : List Char) : Option Directive :=
  (filter.filter (·.covers target)).foldl stronger none

def admits (filter : Filter) (target : String) (level : Level) : Bool :=
  (filter.decisive? target.toList).any fun d => d.limit.admits level

end Filter

end StreamMachine
