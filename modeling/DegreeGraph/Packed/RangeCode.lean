import DegreeGraph.Packed.Bits
import DegreeGraph.Packed.Trouble
import Std.Data.HashMap

/-!
# Range codes

A sequence of binary decisions is written as one long number. A decision cuts the range of numbers that are
possible in two, in proportion to how probable its answers are; where the number lies tells the answer.
Of range and number, 32 bits are kept, and a byte more is read when less than 24 of them are in use. Every
decision has a context, and the probability in a context follows the answers met in it.

A stream under an LZMA reader also holds the bytes that were written.
-/

namespace DegreeGraph.Packed

/-- What a decision is about. -/
inductive Context where
  /-- The next symbol is a copy; by the state and the position. -/
  | isCopy (state position : Nat)
  /-- A copy repeats an earlier distance. -/
  | isRepeat (state : Nat)
  /-- The distance is not the last one, not the one before, not the third last one. -/
  | isOlder (age state : Nat)
  /-- A copy of the last distance is longer than one byte. -/
  | isLong (state position : Nat)
  /-- A length is not among the short ones, and not among the middle ones. -/
  | isLonger (repeated : Bool) (step : Nat)
  /-- A bit of a length: whether it is of a repeated distance, which lengths, the position, the bits before. -/
  | length (repeated : Bool) (step position before : Nat)
  /-- A bit of the size of a distance: the length of the copy and the bits before. -/
  | slot (length before : Nat)
  /-- A low bit of a middle distance: its size and the bits before. -/
  | middle (slot before : Nat)
  /-- One of the lowest bits of a great distance: the bits before. -/
  | lowest (before : Nat)
  /-- A bit of a byte: the bytes around it, how it is compared with another byte, and the bits before. -/
  | byte (surroundings compared before : Nat)
deriving DecidableEq, Hashable, Repr

/-- The number of parts that make up certainty. -/
def certainty : UInt32 := 2048

/-- A stream that is being unpacked by decisions. -/
structure RangeStream where
  /-- The bytes that are left. -/
  input : List UInt8
  /-- The range of numbers that are possible. -/
  range : UInt32 := 0xFFFFFFFF
  /-- The place of the number in the range. -/
  code : UInt32 := 0
  /-- The probability of the answer no, in every context that was met. -/
  chances : Std.HashMap Context UInt32 := {}
  /-- The bytes that were written. -/
  written : Array UInt8 := #[]

/-- A step on a stream under decisions. -/
abbrev RangeM := ExceptT (Halt LzmaTrouble) (StateM RangeStream)

namespace RangeM

/-- The stream follows no rule. -/
def fail {α : Type} (trouble : LzmaTrouble) : RangeM α := throw (.broken trouble)

/-- The next byte. -/
def byte : RangeM UInt8 := do
  let s ← get
  match s.input with
  | [] => throw .cut
  | b :: rest =>
    set { s with input := rest }
    return b

/-- As many of the next bytes as a count says. -/
def bytes : (count : Nat) → RangeM (List UInt8)
  | 0 => return []
  | count + 1 => do
    let b ← byte
    return b :: (← bytes count)

/-- A byte more is taken in when the range has become too small. -/
def normalize : RangeM Unit := do
  if (← get).range < 0x1000000 then
    let b ← byte
    modify fun s ↦ { s with range := s.range <<< 8, code := (s.code <<< 8) ||| b.toUInt32 }

/-- The answer to a decision in a context. -/
def decide (context : Context) : RangeM Bool := do
  normalize
  let s ← get
  let chance := s.chances.getD context (certainty / 2)
  let bound := (s.range >>> 11) * chance
  if s.code < bound then
    set { s with
      range := bound
      chances := s.chances.insert context (chance + ((certainty - chance) >>> 5)) }
    return false
  else
    set { s with
      range := s.range - bound, code := s.code - bound
      chances := s.chances.insert context (chance - (chance >>> 5)) }
    return true

/-- The answer to a decision both of whose answers are equally probable. -/
def toss : RangeM Bool := do
  normalize
  let s ← get
  let half := s.range >>> 1
  let code := s.code - half
  if code &&& 0x80000000 = 0 then
    set { s with range := half, code }
    return true
  else
    set { s with range := half }
    return false

/-- A number of some bits, the highest first, where every bit is decided in the context of those before; a bit one
stands in front of them. -/
def down (context : Nat → Context) : (count before : Nat) → RangeM Nat
  | 0, before => return before
  | count + 1, before => do down context count (2 * before + (← decide (context before)).toNat)

/-- A number of some bits, the lowest first. -/
def up (context : Nat → Context) : (count before : Nat) → RangeM Nat
  | 0, _ => return 0
  | count + 1, before => do
    let bit := (← decide (context before)).toNat
    return bit + 2 * (← up context count (2 * before + bit))

/-- A number of some bits that are equally probable, behind the bits of another number. -/
def tosses : (count before : Nat) → RangeM Nat
  | 0, before => return before
  | count + 1, before => do tosses count (2 * before + (← toss).toNat)

/-- The range and the number at the beginning: a byte zero and four more. -/
def start : RangeM Unit := do
  if (← byte) != 0 then fail .corrupt
  for b in ← bytes 4 do
    modify fun s ↦ { s with code := (s.code <<< 8) ||| b.toUInt32 }

/-- No number is left. -/
def isOver : RangeM Bool := do
  normalize
  return (← get).code = 0

/-- A byte is written. -/
def write (b : UInt8) : RangeM Unit := modify fun s ↦ { s with written := s.written.push b }

end RangeM

end DegreeGraph.Packed
