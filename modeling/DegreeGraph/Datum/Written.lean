import DegreeGraph.Datum.Basic
import DegreeGraph.Number.Integer
import DegreeGraph.Number.Shortest
import DegreeGraph.Text.Quoted

/-!
# Data in messages

A datum inside a message is written so that its kind shows: a text between quotation marks, a list
between brackets. Standing alone, a text is written as it is. An integer of too many digits is not
written, and nothing that holds one (`Datum.isWritable`).
-/

namespace DegreeGraph

open DegreeGraph.Number DegreeGraph.Text

namespace Datum

mutual

/-- The written form of a datum. -/
def written : Datum → String
  | null => "None"
  | bool b => if b then "True" else "False"
  | int z => writeInt z
  | float x => writeFloat x
  | text s => quote s
  | list items => "[" ++ writtenItems items ++ "]"
  | record fields => "\x7b" ++ writtenFields fields ++ "\x7d"

/-- The written forms of data, with commas between them. -/
def writtenItems : List Datum → String
  | [] => ""
  | [d] => d.written
  | d :: rest => d.written ++ ", " ++ writtenItems rest

/-- The written forms of fields, with commas between them. -/
def writtenFields : List (String × Datum) → String
  | [] => ""
  | [(name, d)] => quote name ++ ": " ++ d.written
  | (name, d) :: rest => quote name ++ ": " ++ d.written ++ ", " ++ writtenFields rest

end

/-- The form of a datum that stands alone: a text as it is, anything else as in a message. -/
def display : Datum → String
  | text s => s
  | d => d.written

mutual

/-- No integer in a datum has too many digits to be written. -/
def isWritable : Datum → Bool
  | null => true
  | bool _ => true
  | int z => Number.isWritable z
  | float _ => true
  | text _ => true
  | list items => areWritable items
  | record fields => areWritableFields fields

/-- No integer in data has too many digits to be written. -/
def areWritable : List Datum → Bool
  | [] => true
  | d :: rest => d.isWritable && areWritable rest

/-- No integer in fields has too many digits to be written. -/
def areWritableFields : List (String × Datum) → Bool
  | [] => true
  | (_, d) :: rest => d.isWritable && areWritableFields rest

end

end Datum

/-- A list of texts in a message. -/
def writtenTexts (texts : List String) : String := (Datum.list (texts.map .text)).written

end DegreeGraph
