import DegreeGraph.Edge.Ends
import DegreeGraph.Number.Integer

/-!
# Edge lists in columns

The ends of the edges fill two columns of integers with 64 bits, row by row in ascending order. Data
that are not such integers are refused and never cut; a column is refused for its first reason, and the
column of the sources is looked at first.

What a column is made of decides how it is taken over. Integers that all have 64 bits, with or without a
sign, are one kind, truth values alone another; a number in floating point among numbers makes all of them
doubles. Everything else is a column of mixed data, whose entries are read one by one and must be the same
as what is read.
-/

namespace DegreeGraph

open DegreeGraph.Number

/-- What a column is made of. -/
inductive ColumnKind where
  | whole
  | unsigned
  | doubles
  | truths
  | mixed
deriving DecidableEq, Repr

namespace ColumnKind

/-- What has been seen of a column. -/
structure Seen where
  truth : Bool := false
  integer : Bool := false
  binary : Bool := false
  /-- An integer that needs a sign. -/
  minus : Bool := false
  /-- An integer that needs the bit of the sign. -/
  great : Bool := false

/-- The kind of a column of which all has been seen. -/
def Seen.kind (s : Seen) : ColumnKind :=
  if s.truth then (if s.integer || s.binary then mixed else truths)
  else if s.binary then doubles
  else if s.great then unsigned
  else whole

/-- An integer is seen. -/
def Seen.withInt (s : Seen) (z : Int) : Seen :=
  { s with integer := true, minus := s.minus || z < 0, great := s.great || !isInt64 z }

/-- The kind of a column, some of which has been seen. -/
def ofRest (s : Seen) : List Datum → ColumnKind
  | [] => s.kind
  | .bool _ :: rest => ofRest { s with truth := true } rest
  | .float _ :: rest => ofRest { s with binary := true } rest
  | .int z :: rest =>
    let t := s.withInt z
    if !(isInt64 z || isUInt64 z) || (t.minus && t.great) then mixed else ofRest t rest
  | _ => mixed

/-- The kind of a column. -/
def ofColumn (column : List Datum) : ColumnKind := ofRest {} column

end ColumnKind

/-- An integer with 64 bits. -/
def toInt64 (z : Int) : Except Fault Int := if isInt64 z then .ok z else .error .oversizedIds

/-- One entry of a column of mixed data as an integer with 64 bits; fractions are cut off here. -/
def entryToInt (d : Datum) : Except Fault Int :=
  match d with
  | .bool b => .ok (if b then 1 else 0)
  | .int z => toInt64 z
  | .float x =>
    match (Binary64.ofFloat x).truncated? with
    | some z => toInt64 z
    | none => .error .oversizedIds
  | .text s => do toInt64 (← integerIn s)
  | d => .error (.notNumber d.kind.name)

/-- Mixed data as integers, entry by entry. -/
def entriesToInts : List Datum → Except Fault (List Int)
  | [] => .ok []
  | d :: rest => do
    let z ← entryToInt d
    let zs ← entriesToInts rest
    return z :: zs

/-- Mixed data as integers, which must be the same as the data. -/
def mixedToInts (column : List Datum) : Except Fault (List Int) := do
  let zs ← entriesToInts column
  if (column.zip zs).all fun p ↦ p.1.same (.int p.2) then return zs else throw .mixedIds

/-- A double without a fraction as an integer with 64 bits. -/
def wholeOfFloat? (x : Float) : Option Int :=
  let b := Binary64.ofFloat x
  b.floor?.filter fun z ↦ b.isIntegral && isInt64 z

/-- Doubles as integers. -/
def doublesToInts (column : List Float) : Except Fault (List Int) :=
  match column.mapM wholeOfFloat? with
  | some zs => .ok zs
  | none => .error (if column.all (·.isFinite) then .fractionalIds else .infiniteIds)

/-- A column as integers. -/
def columnToInts (column : List Datum) : Except Fault (List Int) :=
  match ColumnKind.ofColumn column with
  | .whole | .truths => .ok (column.filterMap Datum.toInt?)
  | .unsigned => .error .unsignedIds
  | .doubles => doublesToInts (column.map Datum.toFloat)
  | .mixed => mixedToInts column

/-- The columns of an edge list. -/
structure EdgeColumns where
  source : List Int
  target : List Int
deriving DecidableEq, Repr

namespace EdgeColumns

/-- The rows of the columns. -/
def rows (c : EdgeColumns) : List (Int × Int) := c.source.zip c.target

/-- The columns of ends. -/
def ofEnds (ends : List Ends) : Except Fault EdgeColumns := do
  let source ← columnToInts (ends.map Prod.fst)
  let target ← columnToInts (ends.map Prod.snd)
  return ⟨source, target⟩

/-- The columns of a collection of edges. -/
def ofEdges (edges : Datum) : Except Fault EdgeColumns := do ofEnds (← sortedEnds edges)

end EdgeColumns

/-- The names of the columns of an edge list. -/
def edgeColumnNames : List String := ["source", "target"]

end DegreeGraph
