import DegreeGraph.Edge.Realized
import DegreeGraph.Number.Nearest

/-!
# Charts of degrees

A chart compares at every node the degree that was asked for with the degree that edges realize. Bars of
realized degrees that differ are outlined. The chart grows with the number of nodes between two bounds, and
up to forty nodes every node has its tick.
-/

namespace DegreeGraph

open DegreeGraph.Number

/-- What a chart shows. -/
structure Chart where
  requested : List Int
  realized : List Int
deriving DecidableEq, Repr

namespace Chart

/-- The number of nodes. -/
def count (c : Chart) : Nat := c.requested.length

/-- The nodes whose degrees differ. -/
def outlined (c : Chart) : List Nat :=
  (List.range c.count).filter fun i ↦ c.requested.getD i 0 != c.realized.getD i 0

/-- The title. -/
def title (c : Chart) : String :=
  "Requested vs realized degree — " ++ toString c.count ++ " nodes, " ++ toString c.outlined.length
    ++ " mismatch(es)"

/-- The width in inches. -/
def width (c : Chart) : Float :=
  let x := 0.35 * Float.ofNat c.count
  let x := if 24.0 < x then 24.0 else x
  if 6.0 < x then x else 6.0

/-- The height in inches. -/
def height : Float := 4.5

/-- The text below the chart. -/
def acrossText : String := "Node id"

/-- The text beside the chart. -/
def upText : String := "Degree"

/-- The names of the two series of bars. -/
def legend : List String := ["requested", "realized"]

/-- Every node has its tick. -/
def hasAllTicks (c : Chart) : Bool := 0 < c.count && c.count ≤ 40

/-- Bars of some heights can be drawn: the first is not beyond all doubles, and each has 64 bits at most. -/
def checkHeights (heights : List Int) : Except Fault Unit :=
  if heights.head?.any fun z ↦ (finiteToInt? z).isNone then .error .oversizedForDouble
  else if heights.all isInt64 then .ok ()
  else .error .oversizedBar

/-- The chart of a degree sequence and edges. -/
def ofEdges (sequence edges : Datum) : Except Fault Chart := do
  let requested ← degreesOf sequence
  let realized ← realizedDegrees edges (.int requested.length)
  checkHeights requested
  return ⟨requested, realized⟩

end Chart

end DegreeGraph
