import DegreeGraph.Fault
import DegreeGraph.Number.Binary64

/-!
# Data to look up by

What is stored under a datum is found by every datum that is the same. `Key` is what data that are the same
have in common: all numbers of one value have one key, whatever their kind. Lists and records have none.

`key_text` says that texts are told apart by nothing but themselves.
-/

namespace DegreeGraph

open DegreeGraph.Number

/-- What a datum is looked up by. -/
inductive Key where
  | null
  | whole (value : Int)
  /-- A number with a fraction, or an infinite one. -/
  | binary (value : Binary64)
  | text (value : String)
deriving DecidableEq, Repr

/-- The key of a number in floating point. -/
def Key.ofBinary (b : Binary64) : Key :=
  match b.floor? with
  | some z => if b.isIntegral then whole z else binary b
  | none => binary b

namespace Datum

/-- The key of a datum. -/
def key : Datum → Except Fault Key
  | null => .ok .null
  | bool b => .ok (.whole (if b then 1 else 0))
  | int z => .ok (.whole z)
  | float x => .ok (.ofBinary (Binary64.ofFloat x))
  | text s => .ok (.text s)
  | list _ => .error (.notKey .list)
  | record _ => .error (.notKey .record)

theorem key_text (s : String) : key (text s) = .ok (.text s) := rfl

end Datum

end DegreeGraph
