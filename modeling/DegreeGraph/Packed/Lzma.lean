import DegreeGraph.Number.Power
import DegreeGraph.Packed.Checksum
import DegreeGraph.Packed.RangeCode

/-!
# LZMA streams

A stream is a sequence of bytes and copies of what was written before, each told by binary decisions in a range
code. A header stands in front: how the surroundings of a byte and its position take part in its contexts, how far
back a copy may reach, and how many bytes there are, if that is known. Where it is not, a copy of a
distance that is impossible marks the end; it may also stand behind the last byte where it is known.

A second kind of file wraps such a stream in a header and a footer of its own.
-/

namespace DegreeGraph.Packed.Lzma

open DegreeGraph.Number

/-- How a stream is to be read. -/
structure Setup where
  /-- The number of high bits of the byte before that take part in the context of a byte. -/
  neighborBits : Nat
  /-- The number of low bits of its position that do. -/
  placeBits : Nat
  /-- The number of low bits of its position that take part in the other contexts. -/
  positionBits : Nat
  /-- How far back a copy may reach. -/
  reach : Nat
  /-- The number of bytes in the end. -/
  size? : Option Nat
deriving Repr

/-- The three small numbers that a byte tells, if they are small enough. -/
def setup? (b : UInt8) (reach : Nat) (size? : Option Nat) : Option Setup :=
  let n := b.toNat
  let setup : Setup := ⟨n % 9, n / 9 % 5, n / 45, max reach 4096, size?⟩
  if n < 225 && setup.neighborBits + setup.placeBits ≤ 4 then some setup else none

/-- What was met so far: the state, which tells the kinds of the last symbols, and the last four distances less
one. -/
structure History where
  state : Nat := 0
  last : Nat := 0
  second : Nat := 0
  third : Nat := 0
  fourth : Nat := 0

/-- The state after a byte. -/
def afterByte (state : Nat) : Nat :=
  if state < 4 then 0 else if state < 10 then state - 3 else state - 6

/-- The history after a copy of a new distance. -/
def History.moved (h : History) (distance : Nat) : History :=
  ⟨if h.state < 7 then 7 else 10, distance, h.last, h.second, h.third⟩

/-- The history after a copy of the last distance, of one byte or of more. -/
def History.again (h : History) (long : Bool) : History :=
  { h with state := if h.state < 7 then (if long then 8 else 9) else 11 }

/-- The byte that was written some distance ago, the last one for zero. -/
def back (written : Array UInt8) (distance : Nat) : UInt8 :=
  written.getD (written.size - 1 - distance) 0

/-! ## Symbols -/

/-- The bits of a byte that is compared with another one, as long as they agree; then the others. -/
def comparedBits (surroundings : Nat) : (count other before : Nat) → RangeM Nat
  | 0, _, before => return before
  | count + 1, other, before => do
    let expected := other.testBit count
    let bit ← RangeM.decide (.byte surroundings (1 + expected.toNat) before)
    let before := 2 * before + bit.toNat
    if bit = expected then comparedBits surroundings count other before
    else RangeM.down (.byte surroundings 0) count before

/-- The next byte. -/
def readByte (setup : Setup) (h : History) : RangeM UInt8 := do
  let written := (← get).written
  let before := if written.isEmpty then 0 else (back written 0).toNat
  let surroundings := written.size % twoTo setup.placeBits * twoTo setup.neighborBits
    + before / twoTo (8 - setup.neighborBits)
  let code ← if h.state < 7 then RangeM.down (.byte surroundings 0) 8 1
    else comparedBits surroundings 8 (back written h.last).toNat 1
  return UInt8.ofNat code

/-- The length of a copy. -/
def readLength (repeated : Bool) (position : Nat) : RangeM Nat := do
  if !(← RangeM.decide (.isLonger repeated 0)) then
    return (← RangeM.down (.length repeated 0 position) 3 1) - 8 + 2
  if !(← RangeM.decide (.isLonger repeated 1)) then
    return (← RangeM.down (.length repeated 1 position) 3 1) - 8 + 10
  return (← RangeM.down (.length repeated 2 0) 8 1) - 256 + 18

/-- A new distance less one, for a copy of some length. -/
def readDistance (length : Nat) : RangeM Nat := do
  let slot := (← RangeM.down (.slot (min (length - 2) 3)) 6 1) - 64
  if slot < 4 then return slot
  let extra := slot / 2 - 1
  let high := 2 + slot % 2
  if slot < 14 then
    return high * twoTo extra + (← RangeM.up (.middle slot) extra 1)
  let middle ← RangeM.tosses (extra - 4) high
  return middle * 16 + (← RangeM.up .lowest 4 1)

/-- A symbol. -/
inductive Symbol where
  | byte (b : UInt8)
  | copy (distance length : Nat)
  | ending

/-- The distance that marks the end. -/
def endDistance : Nat := 0xFFFFFFFF

/-- The history with one of the distances before the last one in front. -/
def readOlder (h : History) : RangeM History := do
  if !(← RangeM.decide (.isOlder 1 h.state)) then
    return { h with last := h.second, second := h.last }
  if !(← RangeM.decide (.isOlder 2 h.state)) then
    return { h with last := h.third, second := h.last, third := h.second }
  return { h with last := h.fourth, second := h.last, third := h.second, fourth := h.third }

/-- A copy of a distance that was met before, and the history after it. -/
def readRepeat (position : Nat) (h : History) : RangeM (Symbol × History) := do
  if (← get).written.isEmpty then RangeM.fail .corrupt
  if ← RangeM.decide (.isOlder 0 h.state) then
    let chosen ← readOlder h
    return (.copy chosen.last (← readLength true position), chosen.again true)
  else if ← RangeM.decide (.isLong h.state position) then
    return (.copy h.last (← readLength true position), h.again true)
  else return (.copy h.last 1, h.again false)

/-- The next symbol, and the history after it. -/
def readSymbol (setup : Setup) (h : History) : RangeM (Symbol × History) := do
  let position := (← get).written.size % twoTo setup.positionBits
  if !(← RangeM.decide (.isCopy h.state position)) then
    return (.byte (← readByte setup h), { h with state := afterByte h.state })
  else if ← RangeM.decide (.isRepeat h.state) then readRepeat position h
  else
    let length ← readLength false position
    let distance ← readDistance length
    return (if distance = endDistance then .ending else .copy distance length, h.moved distance)

/-- Bytes that were written some distance ago are written again, one after the other. -/
def copy (distance : Nat) : (length : Nat) → RangeM Unit
  | 0 => return
  | length + 1 => do
    RangeM.write (back (← get).written distance)
    copy distance length

/-- The symbols up to the end. The first argument is greater than their number. -/
def readSymbols (setup : Setup) : (fuel : Nat) → History → RangeM Unit
  | 0, _ => throw .cut
  | fuel + 1, h => do
    let size := (← get).written.size
    let isFull := setup.size? = some size
    if isFull then
      if ← RangeM.isOver then return
    let (symbol, h) ← readSymbol setup h
    match symbol with
    | .byte b =>
      if isFull then RangeM.fail .corrupt
      RangeM.write b
      readSymbols setup fuel h
    | .copy distance length =>
      if min size setup.reach ≤ distance || setup.size?.any (· < size + length) then
        RangeM.fail .corrupt
      copy distance length
      readSymbols setup fuel h
    | .ending =>
      if setup.size?.isSome && !isFull then RangeM.fail .corrupt
      if !(← RangeM.isOver) then RangeM.fail .corrupt

/-- The number of decisions that a byte of a stream can tell: no answer is so probable that more of them leave a
range of 24 bits. -/
def decisionsPerByte : Nat := 512

/-- A stream behind its header. -/
def readBody (setup : Setup) : RangeM Unit := do
  let fuel := decisionsPerByte * ((← get).input.length + 1)
  RangeM.start
  readSymbols setup fuel {}

/-! ## Files -/

/-- The number of some bytes, the lowest first. -/
def readNumber (count : Nat) : RangeM Nat := do
  return (← RangeM.bytes count).foldr (fun b n ↦ b.toNat + 256 * n) 0

/-- How far back a copy may reach is a power of two or three times one, or nothing, or not bounded at all. -/
def isUsualReach (reach : Nat) : Bool :=
  reach = 0 || reach = twoTo 32 - 1
    || (List.range 32).any fun k ↦ reach = twoTo k || reach = 3 * twoTo k

/-- A stream with a header that tells its setup. -/
def readPlain (first : UInt8) : RangeM Unit := do
  if (setup? first 0 none).isNone then RangeM.fail .format
  let reach ← readNumber 4
  if !isUsualReach reach then RangeM.fail .format
  let size ← readNumber 8
  let size? := if size = twoTo 64 - 1 then none else some size
  if size?.any (twoTo 38 ≤ ·) then RangeM.fail .format
  match setup? first reach size? with
  | none => RangeM.fail .format
  | some setup => readBody setup

/-- The bytes at the beginning of a file of the second kind. -/
def wrapperMark : List UInt8 := "LZIP".toUTF8.toList

/-- A stream goes on with some bytes. -/
def expect : List UInt8 → RangeM Unit
  | [] => return
  | b :: rest => do
    if (← RangeM.byte) != b then RangeM.fail .format
    expect rest

/-- A stream in a wrapper, behind the first byte, in a file with some number of bytes. The footer holds the checksum
and the number of the bytes, and in a later version the number of those in the file. -/
def readWrapped (fileSize : Nat) : RangeM Unit := do
  expect wrapperMark.tail
  let version := (← RangeM.byte).toNat
  if 1 < version then RangeM.fail .options
  let reach := (← RangeM.byte).toNat
  let power := reach % 32
  let parts := reach / 32
  if power < 12 || 29 < power || (power = 12 && 0 < parts) then RangeM.fail .corrupt
  readBody ⟨3, 0, 2, twoTo power - parts * twoTo (power - 4), none⟩
  let written := (← get).written
  if (← readNumber 4) != (checksumLowFirst written.toList).toNat then RangeM.fail .corrupt
  if (← readNumber 8) != written.size then RangeM.fail .corrupt
  if version = 1 then
    let size ← readNumber 8
    if size != fileSize - (← get).input.length then RangeM.fail .corrupt

/-- A file, by its first byte. -/
def readFile (fileSize : Nat) : RangeM Unit := do
  let first ← RangeM.byte
  if some first = wrapperMark.head? then readWrapped fileSize else readPlain first

/-- The outcome of a step on some bytes. -/
def outcomeOf (step : RangeM Unit) (bytes : List UInt8) : Outcome LzmaTrouble :=
  let (answer, s) := step.run.run { input := bytes }
  ⟨s.written.toList, answer.map fun _ ↦ s.input⟩

/-- A stream whose setup is told by five bytes, the number of which stands in front of them behind two bytes that do
not count. They are looked at when another byte follows. -/
def readBare : RangeM Unit := do
  let _ ← RangeM.bytes 2
  let properties ← RangeM.bytes (← readNumber 2)
  if (← get).input.isEmpty then throw .cut
  match properties with
  | [first, a, b, c, d] =>
    let reach := [a, b, c, d].foldr (fun b n ↦ b.toNat + 256 * n) 0
    match setup? first reach none with
    | none => RangeM.fail .options
    | some setup => readBody setup
  | _ => RangeM.fail .options

/-- The outcome of unpacking a stream whose setup stands in front. -/
def unpackBare (bytes : List UInt8) : Outcome LzmaTrouble := outcomeOf readBare bytes

/-- The outcome of unpacking a file. -/
def unpack (bytes : List UInt8) : Outcome LzmaTrouble := outcomeOf (readFile bytes.length) bytes

end DegreeGraph.Packed.Lzma
