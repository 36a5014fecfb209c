import DegreeGraph.Edge.Columns

/-!
# Edge lists as comma-separated text

An edge list is a header and one line for every edge, in ascending order, each line ended by a carriage
return and a line feed. A field is put between double quotes if it holds a comma, a double quote, or a
character of a line end; a double quote inside is written twice. An end that cannot be written has no
line.
-/

namespace DegreeGraph

/-- A character that a bare field must not hold. -/
def needsQuotes (c : Char) : Bool := c == ',' || c == '"' || c == '\r' || c == '\n'

/-- A field of a line. -/
def writeField (s : List Char) : List Char :=
  if s.any needsQuotes then
    '"' :: s.flatMap (fun c ↦ if c == '"' then ['"', '"'] else [c]) ++ ['"']
  else s

/-- A line of two fields. -/
def writeLine (a b : String) : List Char :=
  writeField a.toList ++ ',' :: writeField b.toList ++ ['\r', '\n']

/-- The text of a field: nothing for a missing datum. -/
def fieldText : Datum → Except Fault String
  | .null => .ok ""
  | d => d.shown

/-- The header of an edge list. -/
def listingHeader : String := String.ofList (writeLine "source" "target")

/-- The line of an edge. -/
def edgeLine (ends : Ends) : Except Fault String := do
  return String.ofList (writeLine (← fieldText ends.1) (← fieldText ends.2))

end DegreeGraph
