import DegreeGraph.Fault
import DegreeGraph.Number.Binary64
import DegreeGraph.Number.Nearest

/-!
# Equality and order of data

Numbers of different kinds are compared by their exact values. Texts are ordered by their character
codes and lists by their first items that differ, a shorter list before its continuations. All other
pairs of data are at best equal; asking for their order is a fault that names both kinds.

`related_int` says that two integers are always in order and how.
-/

namespace DegreeGraph

open DegreeGraph.Number

/-- A relation, as a condition on the outcome of a comparison. -/
def Relation.admits : Relation → Ordering → Bool
  | less, o => o == .lt
  | greater, o => o == .gt
  | atMost, o => o != .gt
  | atLeast, o => o != .lt

namespace Datum

/-- The value of a datum that is a number. -/
inductive Numeric where
  | whole (value : Int)
  | binary (value : Float)

/-- The number that a datum is. -/
def numeric? : Datum → Option Numeric
  | bool b => some (.whole (if b then 1 else 0))
  | int z => some (.whole z)
  | float x => some (.binary x)
  | _ => none

/-- An integer compared with a double-precision number; the number may be none. -/
def compareWhole (z : Int) : Binary64 → Option Ordering
  | .nan => none
  | .infinite negative => some (if negative then .gt else .lt)
  | b => some (compare (z * (Binary64.unitsPerOne : Int)) b.units)

/-- Two numbers compared by their exact values. -/
def Numeric.compare? : Numeric → Numeric → Option Ordering
  | whole a, whole b => some (compare a b)
  | whole a, binary y => compareWhole a (Binary64.ofFloat y)
  | binary x, whole b => (compareWhole b (Binary64.ofFloat x)).map Ordering.swap
  | binary x, binary y =>
    if x < y then some .lt else if x == y then some .eq else if y < x then some .gt else none

mutual

/-- Two data are the same: numbers by value, records without regard to the order of fields. -/
def same : Datum → Datum → Bool
  | null, b => b.kind == .null
  | text s, b => b.toText? == some s
  | list xs, b => match b with
    | list ys => sameItems xs ys
    | _ => false
  | record xs, b => match b with
    | record ys => xs.length == ys.length && sameFields xs ys
    | _ => false
  | bool v, b => sameNumber (bool v) b
  | int z, b => sameNumber (int z) b
  | float x, b => sameNumber (float x) b

/-- Two lists hold the same items. -/
def sameItems : List Datum → List Datum → Bool
  | [], ys => ys.isEmpty
  | x :: xs, ys => match ys with
    | [] => false
    | y :: ys => same x y && sameItems xs ys

/-- Every field has its partner among other fields. -/
def sameFields : List (String × Datum) → List (String × Datum) → Bool
  | [], _ => true
  | (name, x) :: xs, ys =>
    (match ys.lookup name with
      | some y => same x y
      | none => false)
    && sameFields xs ys

/-- Two data are numbers of one value. -/
def sameNumber (a b : Datum) : Bool :=
  match a.numeric?, b.numeric? with
  | some x, some y => x.compare? y == some .eq
  | _, _ => false

end

/-- Two data that are no lists, in a relation. -/
def relatedAtoms (r : Relation) (a b : Datum) : Except Fault Bool :=
  match a.numeric?, b.numeric?, a, b with
  | some x, some y, _, _ => .ok ((x.compare? y).any r.admits)
  | _, _, text s, text t => .ok (r.admits (compare s t))
  | _, _, _, _ => .error (.incomparable r a.kind b.kind)

mutual

/-- Two data are in a relation. -/
def related (r : Relation) : Datum → Datum → Except Fault Bool
  | list xs, b => match b with
    | list ys => relatedItems r xs ys
    | _ => .error (.incomparable r .list b.kind)
  | null, b => relatedAtoms r null b
  | bool v, b => relatedAtoms r (bool v) b
  | int z, b => relatedAtoms r (int z) b
  | float x, b => relatedAtoms r (float x) b
  | text s, b => relatedAtoms r (text s) b
  | record fields, b => relatedAtoms r (record fields) b

/-- Two lists are in a relation: their first items that differ are, or else their lengths. -/
def relatedItems (r : Relation) : List Datum → List Datum → Except Fault Bool
  | [], ys => .ok (r.admits (compare 0 ys.length))
  | x :: xs, ys => match ys with
    | [] => .ok (r.admits .gt)
    | y :: ys => if same x y then relatedItems r xs ys else related r x y

end

/-- The value of a number in the unit in which all finite numbers are whole. -/
def units? : Datum → Option Int
  | bool b => some (if b then Binary64.unitsPerOne else 0)
  | int z => some (z * (Binary64.unitsPerOne : Int))
  | float x => some (Binary64.ofFloat x).units
  | _ => none

/-- The greatest integer that is not above a number. -/
def floor? : Datum → Option Int
  | float x => (Binary64.ofFloat x).floor?
  | d => d.toInt?

/-- The least integer that is not below a number. -/
def ceiling? : Datum → Option Int
  | float x => (Binary64.ofFloat (-x)).floor?.map (- ·)
  | d => d.toInt?

/-- A number in double precision. -/
def toFloat : Datum → Float
  | float x => x
  | d => nearestToInt (d.toInt?.getD 0)

theorem related_int (r : Relation) (a b : Int) :
    related r (int a) (int b) = .ok (r.admits (compare a b)) := by
  simp [related, relatedAtoms, numeric?, Numeric.compare?]

theorem related_less_int (a b : Int) :
    related .less (int a) (int b) = .ok (decide (a < b)) := by
  have h : Relation.less.admits (compare a b) = decide (a < b) := by
    simp only [Relation.admits, compare, compareOfLessAndEq]
    split
    · simp [*]
    · split <;> simp [*]
  rw [related_int, h]

theorem same_int (a b : Int) : same (int a) (int b) = decide (a = b) := by
  by_cases h : a = b <;>
    simp [same, sameNumber, numeric?, Numeric.compare?, h]

end Datum

end DegreeGraph
