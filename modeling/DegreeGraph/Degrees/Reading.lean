import DegreeGraph.Fault

/-!
# Degrees from data

A degree sequence may arrive as any datum that is a sequence; entry `i` is the degree asked of node
`i`. Truth values count as zero and one. Numbers with a fraction and texts are refused, never cut to
an integer.

`degreesOf_ints` says that a list of integers is read as it is.
-/

namespace DegreeGraph

/-- The degree that a datum is. -/
def degreeOf (d : Datum) : Except Fault Int :=
  match d.toInt? with
  | some z => .ok z
  | none => .error (.notInteger d.kind)

/-- The parts of a datum that is a sequence. -/
def partsOf (d : Datum) : Except Fault (List Datum) :=
  match d.elements? with
  | some items => .ok items
  | none => .error (.notSequence d.kind)

/-- The degrees of a list, or the first entry that is none. -/
def readDegrees : List Datum → Except Fault (List Int)
  | [] => .ok []
  | d :: rest => do
    let z ← degreeOf d
    let zs ← readDegrees rest
    return z :: zs

/-- The degree sequence that a datum is. -/
def degreesOf (d : Datum) : Except Fault (List Int) := partsOf d >>= readDegrees

/-- A degree sequence as a datum. -/
def sequenceDatum (degrees : List Int) : Datum := .list (degrees.map .int)

theorem readDegrees_ints (degrees : List Int) :
    readDegrees (degrees.map .int) = .ok degrees := by
  induction degrees with
  | nil => rfl
  | cons z zs ih => simp [readDegrees, degreeOf, Datum.toInt?, ih, bind, Except.bind, pure,
      Except.pure]

theorem degreesOf_ints (degrees : List Int) : degreesOf (sequenceDatum degrees) = .ok degrees :=
  readDegrees_ints degrees

end DegreeGraph
