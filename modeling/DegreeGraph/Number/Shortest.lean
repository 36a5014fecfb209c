import DegreeGraph.Number.Binary64

/-!
# Shortest decimals

A number is written with the fewest digits that read back as the same number, and of those with the
digits nearest to it. The reals that round to `m · 2^e` form an interval, from halfway to the number
below to halfway to the number above, ends included when `m` is even. For one digit, then two, and so
on, the two neighbours of the number on that decimal grid are tried; the first grid with a hit wins,
and of two hits the nearer, on a tie the even one.

Written out, a number whose leading digit stands for `10^k` with `-4 ≤ k < 16` is positional and has
at least one digit after the point; any other has an exponent of at least two digits with its sign.
-/

namespace DegreeGraph.Number

/-- `digits · 10^exponent`. -/
structure Decimal where
  digits : Nat
  exponent : Int
deriving DecidableEq, Repr

namespace Decimal

/-- Compares `a · 10^i` with `n · 2^j`. -/
def compareScaled (a : Nat) (i : Int) (n : Nat) (j : Int) : Ordering :=
  compare (a * tenTo i.toNat * twoTo (-j).toNat) (n * twoTo j.toNat * tenTo (-i).toNat)

/-- The gap to the number below is half the gap to the number above. -/
def narrowBelow (m : Nat) (e : Int) : Bool := m == twoTo 52 && Binary64.leastExponent < e

/-- The decimal is among the reals that round to `m · 2^e`. -/
def readsBack (m : Nat) (e : Int) (d : Decimal) : Bool :=
  let low := if narrowBelow m e then 4 * m - 1 else 4 * m - 2
  let high := 4 * m + 2
  let closed := m % 2 == 0
  let toLow := compareScaled d.digits d.exponent low (e - 2)
  let toHigh := compareScaled d.digits d.exponent high (e - 2)
  (toLow == .gt || (closed && toLow == .eq)) && (toHigh == .lt || (closed && toHigh == .eq))

/-- The floor of `m · 2^e / 10^k`. -/
def floorOnGrid (m : Nat) (e k : Int) : Nat :=
  (m * twoTo e.toNat * tenTo (-k).toNat) / (twoTo (-e).toNat * tenTo k.toNat)

/-- The number of decimal digits of a positive number, none for zero. -/
def width : (fuel : Nat) → Nat → Nat
  | 0, _ => 0
  | fuel + 1, n => if n = 0 then 0 else 1 + width fuel (n / 10)

/-- The least `k` with `m · 2^e < 10^k`, for a positive number. -/
def scale (m : Nat) (e : Int) : Int :=
  let whole := floorOnGrid m e 0
  if 0 < whole then width 400 whole
  else
    -- below one: count the zeros after the point on the finest grid
    (width 400 (floorOnGrid m e (-400)) : Int) - 400

/-- The better of the two neighbours on the grid of `10^k`, if one of them reads back. -/
def nearestOnGrid? (m : Nat) (e k : Int) : Option Decimal :=
  let below : Decimal := ⟨floorOnGrid m e k, k⟩
  let above : Decimal := ⟨floorOnGrid m e k + 1, k⟩
  match readsBack m e below, readsBack m e above with
  | true, true =>
    match compareScaled (below.digits + above.digits) k (2 * m) e with
    | .gt => some below
    | .lt => some above
    | .eq => some (if below.digits % 2 = 0 then below else above)
  | true, false => some below
  | false, true => some above
  | false, false => none

/-- Moves zeros at the end of the digits into the exponent. -/
def strip : (fuel : Nat) → Decimal → Decimal
  | 0, d => d
  | fuel + 1, d =>
    if d.digits ≠ 0 ∧ d.digits % 10 = 0 then strip fuel ⟨d.digits / 10, d.exponent + 1⟩ else d

/-- The decimal with the fewest digits that reads back as the positive number `m · 2^e`. -/
def shortest (m : Nat) (e : Int) : Decimal :=
  let k := scale m e
  let found := (List.range 17).findSome? fun n ↦ nearestOnGrid? m e (k - (n + 1 : Nat))
  -- the exact value, should no grid have a hit
  let exact : Decimal := ⟨m * twoTo e.toNat * Nat.pow 5 (-e).toNat, -((-e).toNat : Int)⟩
  strip 400 (found.getD exact)

/-- The digits of a decimal, most significant first. -/
def digitChars (d : Decimal) : List Char := (toString d.digits).toList

/-- The exponent of the leading digit. -/
def leading (d : Decimal) : Int := d.exponent + (d.digitChars.length : Int) - 1

/-- Digits with the point among, in front of or behind them. -/
def positional (d : Decimal) : List Char :=
  let ds := d.digitChars
  if 0 ≤ d.exponent then ds ++ List.replicate d.exponent.toNat '0' ++ ['.', '0']
  else
    let places := (-d.exponent).toNat
    if places < ds.length then ds.take (ds.length - places) ++ '.' :: ds.drop (ds.length - places)
    else '0' :: '.' :: List.replicate (places - ds.length) '0' ++ ds

/-- One digit, the rest after a point, and the exponent with its sign and at least two digits. -/
def withExponent (d : Decimal) : List Char :=
  let k := d.leading
  let power := (toString k.natAbs).toList
  let padded := if power.length < 2 then '0' :: power else power
  let body := match d.digitChars with
    | first :: rest => if rest.isEmpty then [first] else first :: '.' :: rest
    | [] => []
  body ++ 'e' :: (if k < 0 then '-' else '+') :: padded

/-- The decimal in the layout that its size calls for. -/
def layout (d : Decimal) : List Char :=
  if -4 ≤ d.leading ∧ d.leading < 16 then d.positional else d.withExponent

end Decimal

/-- The shortest text of a number. -/
def writeFloat (x : Float) : String :=
  match Binary64.ofFloat x with
  | .nan => "nan"
  | .infinite negative => if negative then "-inf" else "inf"
  | .finite negative m e =>
    let body := if m = 0 then ['0', '.', '0'] else (Decimal.shortest m e).layout
    String.ofList (if negative then '-' :: body else body)

end DegreeGraph.Number
