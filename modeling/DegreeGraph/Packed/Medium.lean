import DegreeGraph.Fault

/-!
# Where the bytes of an archive are

An archive may be a file, be held in memory, or come out of a stream as it is unpacked. The three answer alike as
long as places and lengths lie within bounds; they differ in what they make of other ones.
-/

namespace DegreeGraph.Packed

open DegreeGraph.Number

/-- Where the bytes of an archive are. -/
inductive Medium where
  | file
  | memory
  | stream
deriving DecidableEq, Repr

namespace Medium

/-- The last place that a file can have. -/
def lastPlace : Int := twoTo 44 - 4096

/-- The place that is reached when some place is asked for. -/
def reach (place : Int) : Medium → Except Fault Nat
  | file =>
    if !isInt64 place then .error .farPlace
    else if place < 0 || lastPlace < place then .error .noPlace
    else .ok place.toNat
  | memory =>
    if !isInt64 place then .error .farOffset
    else if place < 0 then .error (.negativePlace place)
    else .ok place.toNat
  | stream => if isInt64 place then .ok place.toNat else .error .farPlace

/-- The number of bytes from which on there is no room for them. -/
def roomLimit : Int := twoTo 36

/-- The number of bytes that are read when some number is asked for, nothing standing for all of them. -/
def length? (count : Int) (medium : Medium) : Except Fault (Option Nat) :=
  let length := if count < 0 then none else some count.toNat
  if !isInt64 count then .error .farLength
  else if medium = .memory then .ok length
  else if count < -1 then .error .negativeLength
  else if roomLimit ≤ count then .error .noRoom
  else .ok length

end Medium

end DegreeGraph.Packed
