import DegreeGraph.Fault
import DegreeGraph.Number.Integer

/-!
# Degree lists in text

A degree list is written as integers with commas or blanks between them, such as `3,3, 2 2`. Blanks
around it and, inside of those, brackets around it are dropped. Signs are kept, so that a negative
degree is a matter for the feasibility test and does not vanish here.
-/

namespace DegreeGraph

open DegreeGraph.Number DegreeGraph.Text

/-- The characters that may stand around a degree list. -/
def isBracket (c : Char) : Bool := c == '[' || c == ']' || c == '(' || c == ')'

/-- The characters that stand between degrees. -/
def separatesDegrees (c : Char) : Bool := c == ',' || isBlank c

/-- The part of a text that holds the degrees. -/
def degreeListBody (s : List Char) : List Char := trimBy isBracket (trimBy isBlank s)

/-- The maximal runs of a text that may be degrees. -/
def degreeTokens (s : List Char) : List (List Char) :=
  runsBetween separatesDegrees (degreeListBody s)

/-- The values of integer literals, or the first token that is none. -/
def readTokens : List (List Char) → Except Fault (List Int)
  | [] => .ok []
  | token :: rest =>
    match readInt? token with
    | none => .error (.notDegree (String.ofList token))
    | some z => do
      let zs ← readTokens rest
      return z :: zs

/-- The degrees that a text lists. -/
def parseDegrees (s : String) : Except Fault (List Int) := readTokens (degreeTokens s.toList)

/-- The degrees that a datum lists if it is a text. -/
def parseDatum (d : Datum) : Except Fault (List Int) :=
  match d.toText? with
  | some s => parseDegrees s
  | none => .error (.notText d.kind "strip")

/-- Degrees with commas between them. -/
def writeDegrees (degrees : List Int) : String := ",".intercalate (degrees.map writeInt)

end DegreeGraph
