import DegreeGraph.Event
import DegreeGraph.Files.Address
import DegreeGraph.Files.Packing
import DegreeGraph.Table.Encoded

/-!
# Degrees from a column of a table

The degrees stand in one column of a table, the one of node `i` in row `i`. Every cell has to hold a number
without a fraction; the rows where no number stands are named, the first five of them.
-/

namespace DegreeGraph

open DegreeGraph.Number DegreeGraph.Packed DegreeGraph.Text

/-- The label of a row as an integer: the number of the row, or the number in its only label. -/
def rowLabel (sheet : Sheet) (labels : Column) (row : Nat) : Except Fault Int :=
  if sheet.labels = 0 then .ok row
  else if 1 < sheet.labels then .error (.notNumber "tuple")
  else Column.integerAt labels row

/-- The labels of rows, or the first that is no integer. -/
def rowLabels (sheet : Sheet) (labels : Column) : List Nat → Except Fault (List Int)
  | [] => .ok []
  | row :: rest => do
    let label ← rowLabel sheet labels row
    let later ← rowLabels sheet labels rest
    return label :: later

/-- The rows where a column has no number. -/
def rowsWithout (values : List (Option Float)) : List Nat :=
  (values.zipIdx.filter fun e ↦ e.1.isNone).map Prod.snd

/-- The integer that a double is. -/
def integral? (x : Float) : Option Int :=
  let b := Binary64.ofFloat x
  if b.isIntegral then b.floor? else none

/-- The cells at a place in every row as a column. -/
def Sheet.columnAt (sheet : Sheet) (i : Nat) : Column :=
  Column.ofCells (sheet.labels + sheet.names.length) (sheet.column i)

/-- The degrees in the column at a place in a table that was read from a path. -/
def Sheet.degreesAt (sheet : Sheet) (path name : String) (i : Nat) : Except Fault (List Int) := do
  match ← Column.numbers (sheet.columnAt i) with
  | .exact degrees => return degrees
  | .rounded values =>
    match rowsWithout values with
    | [] =>
      match values.mapM (fun v ↦ v.bind integral?) with
      | some degrees => return degrees
      | none => throw (.notIntegral name path)
    | missing =>
      throw (.notNumeric path (← rowLabels sheet (sheet.columnAt 0) (missing.take 5)))

/-- The degrees in a column of a table that was read from a path. -/
def Sheet.degrees (sheet : Sheet) (path : String) (column : Datum) : Except Fault (List Int) :=
  match column with
  | .list _ => .error (.notKey .list)
  | .record _ => .error (.notKey .record)
  | .text name =>
    match sheet.place? name with
    | some i => sheet.degreesAt path name i
    | none => .error (.noColumn column path sheet.names)
  | _ => .error (.noColumn column path sheet.names)

/-- The part that reports on loading degrees. -/
def loadingReporter : String := "graphgen.sequences"

/-- The report on loading degrees. -/
def loadingEvent (path : String) (column : Datum) : Event :=
  ⟨.info, loadingReporter,
    "Loading degree sequence from: " ++ path ++ " (column=" ++ column.display ++ ")"⟩

/-- The table in a text that was read from a path, which may be packed. -/
def Sheet.ofFile (medium : Medium) (path text : String) : Except Fault Sheet :=
  match Packing.ofPath? path with
  | none => Sheet.ofText text
  | some packing => do Sheet.ofBytes (← packing.unpack medium path (Utf8.encode text))

/-- The degrees in a column of a table that a text at a path holds. -/
def degreesIn (medium : Medium) (path : String) (column : Datum) (text : String) : Except Fault (List Int) := do
  (← Sheet.ofFile medium path text).degrees path column

/-- The degrees in a column of a table at an address. What a path tells about its file is looked at before the file
is; a file that is no path is read into memory. -/
def readDegreeColumn (path : String) (column : Datum) : FileM (List Int) := do
  let isPath ← FileM.ofAnswer (Address.isPath path)
  if isPath then FileM.ofAnswer (checkUnpacker path)
  let text ← Address.read path
  FileM.ofAnswer (degreesIn (if isPath then .file else .memory) path column text)

/-- The degrees in a column of a table at what should be an address. -/
def readDegreeColumnAt (path column : Datum) : FileM (List Int) :=
  match path with
  | .text path => readDegreeColumn path column
  | d => throw (.notReadable d.kind)

end DegreeGraph
