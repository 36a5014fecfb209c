import DegreeGraph.Number.FixedPlaces

/-!
# The double nearest to a number

A quotient of natural numbers is brought to the scale at which a double has its last place, rounded there
with a half going to the even neighbour, and packed. The scale is never below the one of the least doubles,
and what reaches `2^1024` by rounding is infinite.

Packing needs no cases: a rounded mantissa that has grown by one place, and one too small for its place,
both add up to the right bits.
-/

namespace DegreeGraph.Number

/-- The bits of the infinite number. -/
def infiniteBits : Nat := 0x7FF * twoTo 52

/-- The exponent of the last place of the doubles around `num / den`. -/
def lastPlace (num den : Nat) : Int :=
  let e : Int := (num.log2 : Int) - den.log2 - 52
  -- the quotient lies between `2^51` and `2^53` units of `2^e`
  let e := if num * twoTo (-e).toNat < twoTo 52 * (den * twoTo e.toNat) then e - 1 else e
  max e Binary64.leastExponent

/-- The bits of the double nearest to `num / den`. -/
def nearestBits (num den : Nat) : Nat :=
  let e := lastPlace num den
  let mantissa := roundDiv (num * twoTo (-e).toNat) (den * twoTo e.toNat)
  min infiniteBits ((e - Binary64.leastExponent).toNat * twoTo 52 + mantissa)

/-- The double nearest to `num / den`. -/
def nearestQuotient (num den : Nat) : Float :=
  if num = 0 then 0.0 else Float.ofBits (nearestBits num den).toUInt64

/-- The double nearest to `m · 10^e`. -/
def nearestDecimal (m : Nat) (e : Int) : Float :=
  if m = 0 then 0.0
  else if 400 < e then 1.0 / 0.0
  -- `10^e` is below `2^(3 e)`, and half of the least double is `2^-1075`
  else if (m.log2 : Int) + 1076 < 3 * (-e) then 0.0
  else nearestQuotient (m * tenTo e.toNat) (tenTo (-e).toNat)

/-- The double nearest to an integer. -/
def nearestToInt (z : Int) : Float :=
  let size := nearestQuotient z.natAbs 1
  if z < 0 then -size else size

/-- The double nearest to an integer, unless that is infinite. -/
def finiteToInt? (z : Int) : Option Float :=
  let x := nearestToInt z
  if x.isInf then none else some x

end DegreeGraph.Number
