import DegreeGraph.Fault
import DegreeGraph.Number.Binary64
import DegreeGraph.Text.Digest

/-!
# Seeds

A seed may be a datum of several kinds, and each stands for a natural number. An integer stands for its size.
A text stands for its bytes followed by their digest. A number in floating point stands for its remainder by
the prime `2^61 - 1`, in which a half is a number like any other, as a word of 64 bits. Lists and records
are no seeds.
-/

namespace DegreeGraph

open DegreeGraph.Number DegreeGraph.Text

/-- The prime by which numbers in floating point are reduced. -/
def reductionPrime : Nat := twoTo 61 - 1

/-- The remainder of a number in floating point; minus one is avoided. -/
def remainderOf : Binary64 → Int
  | .nan => 0
  | .infinite negative => if negative then -314159 else 314159
  | .finite negative m e =>
    -- `2^61` leaves one, so exponents count by their remainders
    let r : Int := (m * twoTo (e % 61).toNat) % reductionPrime
    if negative then (if r = 1 then -2 else -r) else r

/-- An integer as a word of 64 bits. -/
def asWord (z : Int) : Nat := (z % twoTo 64).toNat

/-- The number that a seed stands for. -/
def seedNumber (seed : Datum) : Except Fault Nat :=
  match seed with
  | .null => .ok 0
  | .bool b => .ok (if b then 1 else 0)
  | .int z => .ok z.natAbs
  | .float x => .ok (asWord (remainderOf (Binary64.ofFloat x)))
  | .text s => .ok (Digest.ofBytes (s.toUTF8.toList ++ Digest.sha512 s.toUTF8.toList))
  | .list _ => .error .notSeed
  | .record _ => .error .notSeed

end DegreeGraph
