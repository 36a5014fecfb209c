import DegreeGraph.Number.Power

/-!
# The digest SHA-512 of a text

A message of bytes is padded to blocks of sixteen words of 64 bits, the last of which tell its length in
bits. Every block is stretched to eighty words, and eighty rounds mix them into eight words of state.

The constants are the fractional parts of roots of the first primes, 64 bits of each: square roots for the
first state and cube roots for the rounds. They are computed here and not listed.
-/

namespace DegreeGraph.Text.Digest

open DegreeGraph.Number

/-! ## Constants -/

/-- The greatest number whose `k`-th power is at most `m`, if it agrees with `n` above the last bits. -/
def rootFrom (k m : Nat) : (bits : Nat) → (n : Nat) → Nat
  | 0, n => n
  | bits + 1, n =>
    let greater := n + twoTo bits
    rootFrom k m bits (if Nat.pow greater k ≤ m then greater else n)

/-- The first 64 bits of the fractional part of the `k`-th root of a number of two or three digits. -/
def rootFraction (k n : Nat) : UInt64 := UInt64.ofNat (rootFrom k (n * twoTo (64 * k)) 70 0)

/-- A number has no divisor between one and itself. -/
def isPrime (n : Nat) : Bool := 2 ≤ n && (List.range n).all fun d ↦ d < 2 || n % d != 0

/-- The first eighty primes. -/
def primes : List Nat := (List.range 410).filter isPrime

/-- The constants of the rounds. -/
def roundConstants : Array UInt64 := (primes.map (rootFraction 3)).toArray

/-- The eight words of state. -/
abbrev State := Array UInt64

/-- The state before the first block. -/
def start : State := ((primes.take 8).map (rootFraction 2)).toArray

/-! ## Rounds -/

/-- A word turned to the right. -/
def turned (w : UInt64) (k : UInt64) : UInt64 := (w >>> k) ||| (w <<< (64 - k))

/-- The word that is added for the one two places back. -/
def lateSum (w : UInt64) : UInt64 := turned w 19 ^^^ turned w 61 ^^^ (w >>> 6)

/-- The word that is added for the one fifteen places back. -/
def earlySum (w : UInt64) : UInt64 := turned w 1 ^^^ turned w 8 ^^^ (w >>> 7)

/-- One word more behind the words of a block. -/
def stretch (words : Array UInt64) (_ : Nat) : Array UInt64 :=
  let back (k : Nat) : UInt64 := words.getD (words.size - k) 0
  words.push (lateSum (back 2) + back 7 + earlySum (back 15) + back 16)

/-- The eighty words of a block. -/
def schedule (block : Array UInt64) : Array UInt64 := (List.range 64).foldl stretch block

/-- One round for a word and its constant. -/
def round (s : State) (word constant : UInt64) : State :=
  let a := s.getD 0 0
  let b := s.getD 1 0
  let c := s.getD 2 0
  let e := s.getD 4 0
  let f := s.getD 5 0
  let g := s.getD 6 0
  let chosen := (e &&& f) ^^^ (~~~e &&& g)
  let most := (a &&& b) ^^^ (a &&& c) ^^^ (b &&& c)
  let first := s.getD 7 0 + (turned e 14 ^^^ turned e 18 ^^^ turned e 41) + chosen + constant + word
  let second := (turned a 28 ^^^ turned a 34 ^^^ turned a 39) + most
  #[first + second, a, b, c, s.getD 3 0 + first, e, f, g]

/-- The state after a block. -/
def absorb (s : State) (block : Array UInt64) : State :=
  let mixed := ((schedule block).zip roundConstants).foldl (fun t p ↦ round t p.1 p.2) s
  Array.zipWith (· + ·) s mixed

/-! ## Messages -/

/-- The number of some bytes, the first of which counts most. -/
def ofBytes (bytes : List UInt8) : Nat := bytes.foldl (fun n b ↦ 256 * n + b.toNat) 0

/-- The last `count` bytes of a number, the first of which counts most. -/
def toBytes : (count : Nat) → Nat → List UInt8
  | 0, _ => []
  | count + 1, n => toBytes count (n / 256) ++ [UInt8.ofNat n]

/-- The first `count` runs of `size` entries of a list. -/
def runsOf {α : Type} (size : Nat) : (count : Nat) → List α → List (List α)
  | 0, _ => []
  | count + 1, xs => xs.take size :: runsOf size count (xs.drop size)

/-- A message with a mark behind it, filled up to whole blocks, with its length in bits at the end. -/
def padded (bytes : List UInt8) : List UInt8 :=
  let zeros := (239 - bytes.length % 128) % 128
  bytes ++ 0x80 :: List.replicate zeros 0 ++ toBytes 16 (8 * bytes.length)

/-- The blocks of a message. -/
def blocks (bytes : List UInt8) : List (Array UInt64) :=
  let filled := padded bytes
  (runsOf 128 (filled.length / 128) filled).map fun block ↦
    ((runsOf 8 16 block).map fun word ↦ UInt64.ofNat (ofBytes word)).toArray

/-- The digest of a message, as 64 bytes. -/
def sha512 (bytes : List UInt8) : List UInt8 :=
  ((blocks bytes).foldl absorb start).toList.flatMap fun w ↦ toBytes 8 w.toNat

end DegreeGraph.Text.Digest
