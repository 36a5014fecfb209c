import DegreeGraph.Table.Row

/-!
# Tables

The first row of a text names the columns, the other rows hold the cells. A row that is too short is filled
with empty cells. The first row below the names may be longer than the names; then the cells in front label
the rows and have no name. Any other row that is longer than the one above it is a failure.

A column without a name is named by its number. Of two columns with one name the later one gets a number
behind it, named columns being served before those without a name.
-/

namespace DegreeGraph

/-- A table: the names of its columns and the cells below each, with the cells in front that label the
rows. -/
structure Sheet where
  names : List String
  /-- How many cells in front of a row label it. -/
  labels : Nat
  cells : List (List (List Char))
deriving DecidableEq, Repr

namespace Sheet

/-! ## Names -/

/-- A name with a number behind it. -/
def numberedName (name : String) (k : Nat) : String := name ++ "." ++ toString k

/-- The least number from `k` on that makes a name that no column has. -/
def freeNumber (taken : List String) (name : String) : (tries : Nat) → (k : Nat) → Nat
  | 0, k => k
  | tries + 1, k =>
    if taken.contains (numberedName name k) then freeNumber taken name tries (k + 1) else k

/-- How many columns have asked for a name so far. -/
abbrev NameCounts := List (String × Nat)

/-- The count of a name. -/
def countOf (counts : NameCounts) (name : String) : Nat := (counts.lookup name).getD 0

/-- Names the column at a place, unless its name is still free, and counts the name. -/
def settleName (state : List String × NameCounts) (i : Nat) : List String × NameCounts :=
  let (names, counts) := state
  let name := names.getD i ""
  let k := countOf counts name
  if k = 0 then (names, (name, 1) :: counts)
  else
    let k := freeNumber names name names.length k
    let settled := numberedName name k
    (names.set i settled, (settled, 1) :: (name, k + 1) :: counts)

/-- The names of the columns for the cells of the first row. -/
def namesOf (header : List (List Char)) : List String :=
  let given := header.map String.ofList
  let places := List.range given.length
  let isNamed (i : Nat) : Bool := given.getD i "" != ""
  let filled := places.map fun i ↦ if isNamed i then given.getD i "" else "Unnamed: " ++ toString i
  let order := places.filter isNamed ++ places.filter (fun i ↦ !isNamed i)
  (order.foldl settleName (filled, [])).1

/-! ## Cells -/

/-- A row filled up to a width. -/
def fill (width : Nat) (fields : List (List Char)) : List (List Char) :=
  fields ++ List.replicate (width - fields.length) []

/-- The rows of a width, or the first that is longer. -/
def fillRows (width : Nat) : List Row → Except Fault (List (List (List Char)))
  | [] => .ok []
  | row :: rest =>
    if width < row.fields.length then .error (.raggedRow width row.line row.fields.length)
    else do
      let later ← fillRows width rest
      return fill width row.fields :: later

/-- The table of a text. -/
def ofText (text : String) : Except Fault Sheet := do
  let found := Rows.ofText text
  match found.rows with
  | [] => throw (found.fault.getD .emptyTable)
  | header :: body =>
    let count := header.fields.length
    let width := max count ((body.head?.map fun row ↦ row.fields.length).getD 0)
    let cells ← fillRows width body
    match found.fault with
    | some fault => throw fault
    | none => return ⟨namesOf header.fields, width - count, cells⟩

/-- The cells at a place in every row. -/
def column (s : Sheet) (i : Nat) : List (List Char) := s.cells.map fun row ↦ row.getD i []

/-- The place in a row of the cells below a name. -/
def place? (s : Sheet) (name : String) : Option Nat :=
  (s.names.findIdx? (· == name)).map (s.labels + ·)

end Sheet

end DegreeGraph
