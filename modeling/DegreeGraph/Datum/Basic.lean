/-!
# Data of unknown kind

Degrees, edges and settings arrive as data whose kind nobody has checked: a degree may be a number
with a fraction, an edge may be a text of two characters. `Datum` is what may arrive. A function that
needs an integer or a pair asks for it, and the kind of a datum that does not serve is part of the
answer.

Truth values are integers as well, one and zero; a text is the sequence of its characters; a record is
the sequence of its field names.
-/

namespace DegreeGraph

/-- A datum of any kind. -/
inductive Datum where
  | null
  | bool (value : Bool)
  | int (value : Int)
  | float (value : Float)
  | text (value : String)
  | list (items : List Datum)
  | record (fields : List (String × Datum))
deriving Inhabited

/-- The kinds of data. -/
inductive Kind where
  | null
  | bool
  | int
  | float
  | text
  | list
  | record
deriving DecidableEq, Repr

/-- The name of a kind in messages. -/
def Kind.name : Kind → String
  | null => "NoneType"
  | bool => "bool"
  | int => "int"
  | float => "float"
  | text => "str"
  | list => "list"
  | record => "dict"

namespace Datum

/-- The kind of a datum. -/
def kind : Datum → Kind
  | null => .null
  | bool _ => .bool
  | int _ => .int
  | float _ => .float
  | text _ => .text
  | list _ => .list
  | record _ => .record

/-- The integer that a datum is. -/
def toInt? : Datum → Option Int
  | bool b => some (if b then 1 else 0)
  | int z => some z
  | _ => none

/-- The text that a datum is. -/
def toText? : Datum → Option String
  | text s => some s
  | _ => none

/-- Whether a condition given by a datum holds: zero and what is empty do not. -/
def holds : Datum → Bool
  | null => false
  | bool b => b
  | int z => z != 0
  | float x => x != 0.0
  | text s => s != ""
  | list items => !items.isEmpty
  | record fields => !fields.isEmpty

/-- The parts of a datum that is a sequence, in order. -/
def elements? : Datum → Option (List Datum)
  | list items => some items
  | text s => some (s.toList.map fun c ↦ text (String.singleton c))
  | record fields => some (fields.map fun f ↦ text f.1)
  | _ => none

/-- The value of a named field. -/
def field? (name : String) : Datum → Option Datum
  | record fields => fields.lookup name
  | _ => none

end Datum

end DegreeGraph
