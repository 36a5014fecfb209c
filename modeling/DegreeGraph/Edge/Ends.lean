import DegreeGraph.Datum.Order
import DegreeGraph.Degrees.Reading
import DegreeGraph.Sorting
import DegreeGraph.Sorting.Fallible

/-!
# Edges from data

An edge arrives as a datum of two parts. Its ends are put in order, the lesser first, so that an edge
and its reverse are one; the edges of a collection are sorted by their ends. Any two data that have an
order may be ends, not only the numbers of nodes, and data without an order are refused.

For integers nothing is refused: `normalised_int` says what comes out.
-/

namespace DegreeGraph

/-- The two ends of an edge. -/
abbrev Ends := Datum × Datum

/-- The ends of an edge. -/
def endsOf (edge : Datum) : Except Fault Ends :=
  match edge.elements? with
  | none => .error (.notPair edge.kind)
  | some [a, b] => .ok (a, b)
  | some parts => .error (if parts.length < 2 then .tooFewEnds parts.length else .tooManyEnds)

/-- The ends of an edge, the lesser first; ends that are level change places. -/
def normalised (ends : Ends) : Except Fault Ends := do
  return if ← ends.1.related .less ends.2 then ends else (ends.2, ends.1)

/-- The ends of edges in normal order, or the first edge that has none. -/
def readEnds : List Datum → Except Fault (List Ends)
  | [] => .ok []
  | edge :: rest => do
    let ends ← normalised (← endsOf edge)
    let later ← readEnds rest
    return ends :: later

/-- The first ends precede the second: by their first parts that differ. -/
def endsBefore (a b : Ends) : Except Fault Bool :=
  Datum.relatedItems .less [a.1, a.2] [b.1, b.2]

/-- The first ends are not behind the second, as far as they have an order. -/
def endsAtMost (a b : Ends) : Bool :=
  match endsBefore b a with
  | .ok before => !before
  | .error _ => true

/-- Both ends are numbers. -/
def areNumbers (ends : Ends) : Bool := ends.1.numeric?.isSome && ends.2.numeric?.isSome

/-- The ends of edges in ascending order. Numbers always have an order; other data may have none. -/
def sortEnds (ends : List Ends) : Except Fault (List Ends) :=
  if ends.all areNumbers then .ok (sortedBy endsAtMost ends) else Fallible.sorted endsBefore ends

/-- The ends of a collection of edges, each in normal order, in ascending order. -/
def sortedEnds (edges : Datum) : Except Fault (List Ends) := do
  sortEnds (← readEnds (← partsOf edges))

/-- An edge between numbered nodes as a datum. -/
def edgeDatum (a b : Int) : Datum := .list [.int a, .int b]

theorem endsOf_edgeDatum (a b : Int) : endsOf (edgeDatum a b) = .ok (.int a, .int b) := rfl

theorem normalised_int (a b : Int) :
    normalised (.int a, .int b)
      = .ok (if a < b then (.int a, .int b) else (.int b, .int a)) := by
  simp only [normalised, Datum.related_less_int, bind, Except.bind, pure, Except.pure]
  by_cases hab : a < b <;> simp [hab]

end DegreeGraph
