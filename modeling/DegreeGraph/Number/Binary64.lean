import DegreeGraph.Number.Power

/-!
# Binary floating-point numbers, exactly

A finite double-precision number is `± m · 2^e` with `m < 2^53` and `e ≥ -1074`. Everything that is
decided about such a number here is decided on `m` and `e` in exact arithmetic: its sign, its floor,
and how it compares with an integer. The operations of the machine are used only where a sum or a
product is asked for.
-/

namespace DegreeGraph.Number

/-- A double-precision number, taken apart. -/
inductive Binary64 where
  | nan
  | infinite (negative : Bool)
  | finite (negative : Bool) (mantissa : Nat) (exponent : Int)
deriving DecidableEq, Repr

namespace Binary64

/-- The parts that the bits of a number stand for. -/
def ofBits (b : UInt64) : Binary64 :=
  let negative := (b >>> 63) == 1
  let e := ((b >>> 52) &&& 0x7FF).toNat
  let f := (b &&& 0xFFFFFFFFFFFFF).toNat
  if e = 0x7FF then
    if f = 0 then infinite negative else nan
  else if e = 0 then finite negative f (-1074)
  else finite negative (twoTo 52 + f) ((e : Int) - 1075)

/-- The parts of a number. -/
def ofFloat (x : Float) : Binary64 := ofBits x.toBits

/-- The least exponent of a finite number. -/
def leastExponent : Int := -1074

/-- The unit in which every finite number is a whole one: `2^1074` of them make one. -/
def unitsPerOne : Nat := twoTo 1074

/-- A finite number in units; infinite numbers lie beyond every finite one. -/
def units : Binary64 → Int
  | nan => 0
  | infinite negative => if negative then -(twoTo 2200) else twoTo 2200
  | finite negative m e =>
    let size : Int := m * twoTo (e - leastExponent).toNat
    if negative then -size else size

/-- The greatest integer that is not above a finite number. -/
def floor? : Binary64 → Option Int
  | finite negative m e =>
    let signed : Int := if negative then -(m : Int) else m
    some (if 0 ≤ e then signed * twoTo e.toNat else Int.fdiv signed (twoTo (-e).toNat))
  | _ => none

/-- A finite number without its fractional part. -/
def truncated? : Binary64 → Option Int
  | finite negative m e =>
    let size : Int := if 0 ≤ e then m * twoTo e.toNat else m / twoTo (-e).toNat
    some (if negative then -size else size)
  | _ => none

/-- A finite number without a fractional part. -/
def isIntegral : Binary64 → Bool
  | finite _ m e => 0 ≤ e || m % twoTo (-e).toNat == 0
  | _ => false

end Binary64

/-- The floor of a number, held between two bounds; a number that is none stays at the lower one. -/
def floorBetween (low high : Int) (x : Float) : Int :=
  match Binary64.ofFloat x with
  | .nan => low
  | .infinite negative => if negative then low else high
  | b => max low (min high (b.floor?.getD low))

end DegreeGraph.Number
