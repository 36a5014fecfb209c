import DegreeGraph.Table.Column
import DegreeGraph.Table.Sheet

/-!
# Tables in bytes

The bytes of a table may be no text. What cuts a table into fields is never a part of a longer character, so the bytes
are cut first and the fields are read as texts then: the names of the columns, and piece by piece the cells below
them, the first column of a piece before the others. What is wrong with the rows of a piece, or behind the last
one, is met before its cells are read.
-/

namespace DegreeGraph.Sheet

open DegreeGraph.Text

/-- Bytes as characters, one for each. -/
def charsOf (bytes : List UInt8) : List Char := bytes.map fun b ↦ Char.ofNat b.toNat

/-- The text of a field whose characters stand for bytes. -/
def decodeField (field : List Char) : Except Fault (List Char) :=
  ((Utf8.decode (field.map fun c ↦ UInt8.ofNat c.toNat)).map String.toList).mapError .notUtf8

/-- The bytes of the mark of the byte order. -/
def orderMark : List UInt8 := Utf8.encode "\uFEFF"

/-- The rows in some bytes, as characters that stand for bytes. -/
def rowsIn (bytes : List UInt8) : Rows :=
  let marked := orderMark.isPrefixOf bytes
  Rows.scan .lineStart (.fresh 0) (charsOf (if marked then bytes.drop orderMark.length else bytes))

/-- The texts in rows of a width, the first column being read first. -/
def decodeRows (width : Nat) (rows : List (List (List Char))) : Except Fault (List (List (List Char))) := do
  let columns := (List.range width).map fun i ↦ rows.map fun row ↦ row.getD i []
  let _ ← columns.mapM (·.mapM decodeField)
  rows.mapM (·.mapM decodeField)

/-- The texts in rows that are cut into pieces of some length, behind which there may be a fault. The fourth argument
is greater than the number of rows. -/
def decodePieces (width length : Nat) (fault : Option Fault) : (fuel : Nat) → List Row →
    Except Fault (List (List (List Char)))
  | 0, _ => .ok []
  | fuel + 1, rows => do
    let piece ← fillRows width (rows.take length)
    let isLast := rows.length < length
    match if isLast then fault else none with
    | some fault => throw fault
    | none =>
      let texts ← decodeRows width piece
      if isLast then return texts
      else return texts ++ (← decodePieces width length fault fuel (rows.drop length))

/-- The table in some bytes. -/
def ofBytes (bytes : List UInt8) : Except Fault Sheet := do
  let found := rowsIn bytes
  match found.rows, found.fault with
  | [], fault => throw (fault.getD .emptyTable)
  | [_], some fault => throw fault
  | header :: body, fault =>
    let names ← header.fields.mapM decodeField
    let width := max names.length ((body.head?.map fun row ↦ row.fields.length).getD 0)
    let cells ← decodePieces width (Column.pieceLength width) fault (body.length + 1) body
    return ⟨namesOf names, width - names.length, cells⟩

end DegreeGraph.Sheet
