import DegreeGraph.Number.Power
import DegreeGraph.Packed.PrefixCode
import DegreeGraph.Packed.Trouble

/-!
# Deflated streams

A stream consists of blocks. A block holds bytes as they are, or words of two prefix codes: one for bytes, for
the lengths of copies and for the end of the block, and one for the distances of copies. The codes are fixed, or
their lengths stand in front of the block, themselves written in a prefix code.
-/

namespace DegreeGraph.Packed.Deflate

open DegreeGraph.Number

/-- A step on a deflated stream. -/
abbrev DeflateM := BitM DeflateTrouble

/-! ## Copies -/

/-- The symbol that ends a block. -/
def endSymbol : Nat := 256

/-- The length of a copy from its symbol behind the end symbol. -/
def copyLength (k : Nat) : DeflateM Nat :=
  if k < 8 then return k + 3
  else if k < 28 then do
    let extra := k / 4 - 1
    return 3 + (4 + k % 4) * twoTo extra + (← BitM.low extra)
  else if k = 28 then return 258
  else BitM.fail .literal

/-- The distance of a copy from its symbol. -/
def copyDistance (k : Nat) : DeflateM Nat :=
  if k < 4 then return k + 1
  else if k < 30 then do
    let extra := k / 2 - 1
    return 1 + (2 + k % 2) * twoTo extra + (← BitM.low extra)
  else BitM.fail .distance

/-- Bytes that were written some distance ago are written again, one after the other. -/
def copy (distance : Nat) : (length : Nat) → DeflateM Unit
  | 0 => return
  | length + 1 => do
    let written := (← get).written
    BitM.write (written.getD (written.size - distance) 0)
    copy distance length

/-- The symbols of a block up to its end. The first argument is greater than the number of bits that are left. -/
def readSymbols (literals distances : PrefixCode) : (fuel : Nat) → DeflateM Unit
  | 0 => throw .cut
  | fuel + 1 => do
    let symbol ← literals.read .literal 0
    if symbol < endSymbol then
      BitM.write (UInt8.ofNat symbol)
      readSymbols literals distances fuel
    else if symbol = endSymbol then return
    else
      let length ← copyLength (symbol - endSymbol - 1)
      let distance ← copyDistance (← distances.read .distance 0)
      if (← BitM.size) < distance then BitM.fail .farDistance
      copy distance length
      readSymbols literals distances fuel

/-! ## Codes -/

/-- The code for bytes, lengths and the end of a block that is fixed. -/
def fixedLiterals : PrefixCode :=
  PrefixCode.ofLengths 1
    (List.replicate 144 8 ++ List.replicate 112 9 ++ List.replicate 24 7 ++ List.replicate 8 8)

/-- The code for distances that is fixed. -/
def fixedDistances : PrefixCode := PrefixCode.ofLengths 1 (List.replicate 32 5)

/-- The order in which the lengths of the code for lengths are written. -/
def lengthOrder : List Nat := [16, 17, 18, 0, 8, 7, 9, 6, 10, 5, 11, 4, 12, 3, 13, 2, 14, 1, 15]

/-- The code for lengths, from its lengths in their order. Where no symbol has a word, one bit stands for the
length zero. -/
def lengthCode? (written : List Nat) : Option PrefixCode :=
  let lengths := (List.range 19).map fun symbol ↦ (written.zip lengthOrder).foldl
    (fun found e ↦ if e.2 = symbol then e.1 else found) 0
  if lengths.all (· = 0) then some [[0, 0]]
  else
    let code := PrefixCode.ofLengths 1 lengths
    if code.unused? = some 0 then some code else none

/-- Words may be left in a code only if its words are of one bit. -/
def isSound (code : PrefixCode) : Bool :=
  match code.unused? with
  | none => false
  | some left => left = 0 || code.length ≤ 1

/-- A length, or how many times which length comes next, from a symbol of the code for lengths. -/
def repetition (lengths : List Nat) (symbol : Nat) : DeflateM (List Nat) :=
  if symbol < 16 then return [symbol]
  else if symbol = 16 then do
    let times ← BitM.low 2
    match lengths.getLast? with
    | none => BitM.fail .repetition
    | some length => return List.replicate (times + 3) length
  else if symbol = 17 then return List.replicate ((← BitM.low 3) + 3) 0
  else return List.replicate ((← BitM.low 7) + 11) 0

/-- As many lengths as a count says. The first argument is greater than the number of those that are missing. -/
def readLengths (code : PrefixCode) (count : Nat) : (fuel : Nat) → List Nat → DeflateM (List Nat)
  | 0, lengths => return lengths
  | fuel + 1, lengths => do
    if count ≤ lengths.length then return lengths
    let symbol ← code.read .lengthCode 0
    let more ← repetition lengths symbol
    if count < lengths.length + more.length then BitM.fail .repetition
    readLengths code count fuel (lengths ++ more)

/-- The lengths in which the code for lengths is written. -/
def readShortLengths : (count : Nat) → DeflateM (List Nat)
  | 0 => return []
  | count + 1 => do
    let length ← BitM.low 3
    return length :: (← readShortLengths count)

/-- The two codes in front of a block. -/
def readCodes : DeflateM (PrefixCode × PrefixCode) := do
  let literals := (← BitM.low 5) + 257
  let distances := (← BitM.low 5) + 1
  let short := (← BitM.low 4) + 4
  if 286 < literals || 30 < distances then BitM.fail .tooManySymbols
  let written ← readShortLengths short
  match lengthCode? written with
  | none => BitM.fail .lengthCode
  | some code =>
    let count := literals + distances
    let lengths ← readLengths code count (count + 1) []
    if lengths.getD endSymbol 0 = 0 then BitM.fail .noEnd
    let first := PrefixCode.ofLengths 1 (lengths.take literals)
    if !isSound first then BitM.fail .literalCode
    let second := PrefixCode.ofLengths 1 (lengths.drop literals)
    if !isSound second then BitM.fail .distanceCode
    return (first, second)

/-! ## Blocks -/

/-- Bytes that stand in a stream as they are. -/
def readStored : (count : Nat) → DeflateM Unit
  | 0 => return
  | count + 1 => do
    BitM.write (UInt8.ofNat (← BitM.low 8))
    readStored count

/-- The rest of a block of some kind. -/
def readBlock (kind : Nat) : DeflateM Unit := do
  let fuel := (← get).bits.length + 1
  if kind = 0 then
    BitM.align
    let length ← BitM.low 16
    if (← BitM.low 16) + length != 0xFFFF then BitM.fail .storedLength
    readStored length
  else if kind = 1 then readSymbols fixedLiterals fixedDistances fuel
  else if kind = 2 then
    let (literals, distances) ← readCodes
    readSymbols literals distances fuel
  else BitM.fail .blockKind

/-- The blocks up to the last one. The first argument is greater than the number of bits that are left. -/
def readBlocks : (fuel : Nat) → DeflateM Unit
  | 0 => throw .cut
  | fuel + 1 => do
    let isLast ← BitM.bit
    readBlock (← BitM.low 2)
    if isLast then return else readBlocks fuel

/-- The outcome of unpacking a deflated stream. -/
def unpack (bytes : List UInt8) : Outcome DeflateTrouble :=
  unpackBits lowFirst (readBlocks (8 * bytes.length + 1)) bytes

end DegreeGraph.Packed.Deflate
