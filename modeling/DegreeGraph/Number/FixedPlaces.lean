import DegreeGraph.Number.Binary64

/-!
# A fixed number of places

A number with a fixed number of digits after the point. The exact value is rounded, and a value
halfway between two neighbours goes to the even one.
-/

namespace DegreeGraph.Number

/-- The quotient of two numbers rounded to the nearest integer, a half to the even one. -/
def roundDiv (num den : Nat) : Nat :=
  let q := num / den
  match compare (2 * (num % den)) den with
  | .lt => q
  | .gt => q + 1
  | .eq => if q % 2 = 0 then q else q + 1

/-- Digits with a point in front of the last `places` of them. -/
def pointBefore (places n : Nat) : List Char :=
  let ds := (toString n).toList
  let padded := List.replicate (places + 1 - ds.length) '0' ++ ds
  padded.take (padded.length - places) ++ '.' :: padded.drop (padded.length - places)

/-- A number with `places` digits after the point. -/
def writeFixed (places : Nat) (x : Float) : String :=
  match Binary64.ofFloat x with
  | .nan => "nan"
  | .infinite negative => if negative then "-inf" else "inf"
  | .finite negative m e =>
    let rounded := roundDiv (m * twoTo e.toNat * tenTo places) (twoTo (-e).toNat)
    let body := pointBefore places rounded
    String.ofList (if negative then '-' :: body else body)

end DegreeGraph.Number
