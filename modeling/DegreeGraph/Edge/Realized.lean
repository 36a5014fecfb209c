import DegreeGraph.Edge.Ends
import DegreeGraph.Number.Integer

/-!
# The degrees that edges realize

`realizedDegrees` counts at every node the edges that touch it, a loop twice. A node is named by its
number; a negative number counts from the last node.

`isRealization` asks whether edges form a simple graph with given degrees. The edges are looked at one
by one and the first that is a loop, leaves the range of the nodes, or was there before decides; what
comes after it is not looked at.
-/

namespace DegreeGraph

open DegreeGraph.Number

/-- The place that a datum names in a list of some length; a number that names none may even be too large to
name a place in any list. -/
def placeOf (length : Nat) (d : Datum) : Except Fault Nat :=
  match d.toInt? with
  | none => .error (.notIndex d.kind)
  | some z =>
    let place := if z < 0 then z + length else z
    if 0 ≤ place && place < (length : Int) then .ok place.toNat
    else .error (if isInt64 z then .indexOutOfRange else .indexTooLarge)

/-- One more at a place. -/
def countAt (degrees : List Int) (d : Datum) : Except Fault (List Int) := do
  let i ← placeOf degrees.length d
  return degrees.modify i (· + 1)

/-- Both ends of an edge counted. -/
def countEnds (degrees : List Int) (ends : Ends) : Except Fault (List Int) := do
  countAt (← countAt degrees ends.1) ends.2

/-- The ends of every edge counted. -/
def countEdges (degrees : List Int) : List Datum → Except Fault (List Int)
  | [] => .ok degrees
  | edge :: rest => do countEdges (← countEnds degrees (← endsOf edge)) rest

/-- The number of entries from which there is no room for a list. -/
def roomLimit : Nat := twoTo 32

/-- No edge at any of a number of nodes. -/
def noDegrees (count : Datum) : Except Fault (List Int) :=
  match count.toInt? with
  | none => .error (.notCount count.kind)
  | some n =>
    if !isInt64 n then .error .countTooLarge
    else if roomLimit ≤ n.toNat then .error .noRoom
    else .ok (List.replicate n.toNat 0)

/-- The degree of every node in a collection of edges. -/
def realizedDegrees (edges count : Datum) : Except Fault (List Int) := do
  let degrees ← noDegrees count
  countEdges degrees (← partsOf edges)

/-- A datum lies in the range of the nodes. -/
def isNode (count : Nat) (d : Datum) : Except Fault Bool := do
  if ← Datum.related .atMost (.int 0) d then Datum.related .less d (.int count) else return false

/-- Two edges have the same ends. -/
def sameEnds (a b : Ends) : Bool := a.1.same b.1 && a.2.same b.2

/-- The ends of edges up to the first edge that is no edge of a simple graph; nothing if there is one. -/
def simpleEnds (count : Nat) (seen : List Ends) : List Datum → Except Fault (Option (List Ends))
  | [] => .ok (some seen)
  | edge :: rest => do
    let ends ← endsOf edge
    if ends.1.same ends.2 then return none
    if !(← isNode count ends.1) then return none
    if !(← isNode count ends.2) then return none
    let ends ← normalised ends
    if seen.any (sameEnds ends) then return none
    simpleEnds count (seen ++ [ends]) rest

/-- The ends of every edge counted. -/
def countAll (degrees : List Int) : List Ends → Except Fault (List Int)
  | [] => .ok degrees
  | ends :: rest => do countAll (← countEnds degrees ends) rest

/-- Edges form a simple graph with given degrees. -/
def isRealization (edges sequence : Datum) : Except Fault Bool := do
  let degrees ← degreesOf sequence
  match ← simpleEnds degrees.length [] (← partsOf edges) with
  | none => return false
  | some ends => return (← countAll (List.replicate degrees.length 0) ends) == degrees

end DegreeGraph
