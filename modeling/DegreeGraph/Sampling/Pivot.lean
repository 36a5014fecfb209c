import DegreeGraph.Degrees.Reading
import DegreeGraph.Datum.Order

/-!
# The choice of the pivot

The pivot is the node with the least positive demand, the first of them if there are several. With
this rule a node keeps its turn until its demand is met, because each edge that it gets lowers its
demand below that of every other node that waits.
-/

namespace DegreeGraph

/-- The place and the size of the least positive demand, the first one of its size. -/
def leastPositive : List Int → Option (Nat × Int)
  | [] => none
  | d :: rest =>
    match leastPositive rest with
    | none => if 0 < d then some (0, d) else none
    | some (i, least) => if 0 < d ∧ d ≤ least then some (0, d) else some (i + 1, least)

/-- The node with the least positive demand. -/
def selectPivot (residual : List Int) : Option Nat := (leastPositive residual).map Prod.fst

/-- The demands of data that are numbers, in a unit in which all are whole. -/
def readDemands : List Datum → Except Fault (List Int)
  | [] => .ok []
  | d :: rest =>
    match d.units? with
    | none => .error (.incomparable .greater d.kind .int)
    | some z => do
      let zs ← readDemands rest
      return z :: zs

/-- The place of the least positive number of a datum that is a sequence. -/
def pivotOf (residual : Datum) : Except Fault (Option Nat) := do
  let demands ← readDemands (← partsOf residual)
  return selectPivot demands

end DegreeGraph
