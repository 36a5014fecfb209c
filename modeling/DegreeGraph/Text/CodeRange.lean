/-!
# Ranges of code points

A class of characters is kept as a list of closed ranges of code points, ascending and apart.
Membership is one scan of the list. The properties follow version 14 of the Unicode standard.
-/

namespace DegreeGraph.Text

/-- A closed range of code points. -/
abbrev CodeRange := Nat × Nat

/-- Some range of the list holds the code point. -/
def inRanges (ranges : List CodeRange) (code : Nat) : Bool :=
  ranges.any fun r ↦ r.1 ≤ code && code ≤ r.2

/-- Every range is non-empty, and each ends before the next begins. -/
def rangesApart : List CodeRange → Bool
  | [] => true
  | [r] => r.1 ≤ r.2
  | r :: s :: rest => r.1 ≤ r.2 && r.2 < s.1 && rangesApart (s :: rest)

end DegreeGraph.Text
