import DegreeGraph.Sampling.Source

/-!
# The Mersenne twister

The draws of a seeded run come from the generator MT19937: 624 words of 32 bits that are twisted into
the next 624, each word being tempered when it is given out. The number to start from is cut into words of
32 bits, least significant first, and the words are mixed into the state.

A number below a bound of `k` bits is the top `k` bits of a word; words whose top bits reach the bound
are passed over.
-/

namespace DegreeGraph

/-- The words of the generator and the place of the next one to be given out. -/
structure Twister where
  words : Array UInt32
  next : Nat

namespace Twister

/-- The number of words. -/
def size : Nat := 624

/-- How far ahead of a word the one lies that is mixed into it. -/
def lag : Nat := 397

/-- The high half of a word's bits folded onto the low ones. -/
def folded (w : UInt32) : UInt32 := w ^^^ (w >>> 30)

/-- The words that a single number fills the state with. -/
def filled (seed : UInt32) : Array UInt32 :=
  (List.range (size - 1)).foldl
    (fun words i ↦ words.push (1812433253 * folded (words.getD i 0) + UInt32.ofNat (i + 1)))
    #[seed]

/-- The place after a place; the last word is copied to the front when the end is passed. -/
def advance (words : Array UInt32) (i : Nat) : Array UInt32 × Nat :=
  if i + 1 < size then (words, i + 1) else (words.setIfInBounds 0 (words.getD (size - 1) 0), 1)

/-- Mixes one word of a key into the state. -/
def mixKey (key : Array UInt32) (state : Array UInt32 × Nat) (step : Nat) : Array UInt32 × Nat :=
  let (words, i) := state
  let j := step % key.size
  let mixed := (words.getD i 0 ^^^ (folded (words.getD (i - 1) 0) * 1664525)) + key.getD j 0
    + UInt32.ofNat j
  advance (words.setIfInBounds i mixed) i

/-- Mixes the place of a word into the state. -/
def mixPlace (state : Array UInt32 × Nat) (_ : Nat) : Array UInt32 × Nat :=
  let (words, i) := state
  let mixed := (words.getD i 0 ^^^ (folded (words.getD (i - 1) 0) * 1566083941)) - UInt32.ofNat i
  advance (words.setIfInBounds i mixed) i

/-- The generator that a key starts. -/
def ofKey (key : Array UInt32) : Twister :=
  let keyed := (List.range (max size key.size)).foldl (mixKey key) (filled 19650218, 1)
  let placed := (List.range (size - 1)).foldl mixPlace keyed
  ⟨placed.1.setIfInBounds 0 0x80000000, size⟩

/-- The words of 32 bits of a number, least significant first; zero has one. -/
def keyWords (n : Nat) : List UInt32 :=
  if h : n < 0x100000000 then [UInt32.ofNat n]
  else UInt32.ofNat (n % 0x100000000) :: keyWords (n / 0x100000000)
termination_by n
decreasing_by exact Nat.div_lt_self (by omega) (by decide)

/-- The generator that a number starts. -/
def ofSeed (n : Nat) : Twister := ofKey (keyWords n).toArray

/-- The word that takes the place of the word at `i`. -/
def twisted (words : Array UInt32) (i : Nat) : UInt32 :=
  let joined := (words.getD i 0 &&& 0x80000000) ||| (words.getD ((i + 1) % size) 0 &&& 0x7FFFFFFF)
  words.getD ((i + lag) % size) 0 ^^^ (joined >>> 1)
    ^^^ (if joined &&& 1 == 0 then 0 else 0x9908B0DF)

/-- The next words, each made from those that are already there. -/
def twist (words : Array UInt32) : Array UInt32 :=
  (List.range size).foldl (fun words i ↦ words.setIfInBounds i (twisted words i)) words

/-- A word as it is given out. -/
def tempered (w : UInt32) : UInt32 :=
  let w := w ^^^ (w >>> 11)
  let w := w ^^^ ((w <<< 7) &&& 0x9D2C5680)
  let w := w ^^^ ((w <<< 15) &&& 0xEFC60000)
  w ^^^ (w >>> 18)

/-- The next word and the generator afterwards. -/
def word (t : Twister) : UInt32 × Twister :=
  let t : Twister := if t.next < size then t else ⟨twist t.words, 0⟩
  (tempered (t.words.getD t.next 0), { t with next := t.next + 1 })

/-- The number of bits of a number. -/
def bitCount (n : Nat) : Nat := if n = 0 then 0 else n.log2 + 1

/-- How many words are passed over at most. -/
def patience : Nat := 4096

/-- A number up to `last` from the first word that has one; a word is brought below the bound when
patience has run out. -/
def drawWithin : (tries : Nat) → Twister → (last : Nat) → Fin (last + 1) × Twister
  | 0, t, last =>
    let (w, t) := t.word
    (Fin.ofNat (last + 1) w.toNat, t)
  | tries + 1, t, last =>
    let (w, t) := t.word
    let n := w.toNat >>> (32 - bitCount (last + 1))
    if h : n < last + 1 then (⟨n, h⟩, t) else drawWithin tries t last

/-- The generator as a source of draws. -/
def source : Source Twister := ⟨drawWithin patience⟩

end Twister

end DegreeGraph
