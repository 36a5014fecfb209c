import DegreeGraph.Packed.Checksum
import DegreeGraph.Packed.PrefixCode

/-!
# Bzip streams

A stream consists of blocks. Unpacking a block undoes four steps, the last one first.

* Words of some prefix codes, which change every fifty words, stand for symbols.
* A symbol stands for a run of the byte that was met last, or for a byte by the number of other bytes that were
  met since.
* The bytes are the last ones of all rotations of a text in order. The ends of the rotations sorted once more are
  their beginnings, so they tell which byte follows which.
* In the text, four bytes that are the same are followed by the number of further ones.

A bit that stands for a text with some bytes changed is read and does not count. Nothing is told about what is
wrong with a stream.
-/

namespace DegreeGraph.Packed.Bzip

/-- A step on a bzip stream. -/
abbrev BzipM := BitM Unit

/-- The stream follows no rule. -/
def refuse {α : Type} : BzipM α := BitM.fail ()

/-- A stream goes on with some bytes. -/
def expect : List UInt8 → BzipM Unit
  | [] => return
  | b :: rest => do
    if (← BitM.high 8) != b.toNat then refuse
    expect rest

/-! ## Symbols -/

/-- The greatest length of a word. -/
def longestWord : Nat := 20

/-- The number of words that a prefix code is used for. -/
def groupSize : Nat := 50

/-- The bytes that a block uses. -/
def readBytes : BzipM (List UInt8) := do
  let groups ← BitM.bits 16
  let rec readGroups : List (Bool × Nat) → BzipM (List Nat)
    | [] => return []
    | (false, _) :: rest => readGroups rest
    | (true, k) :: rest => do
      let group ← BitM.bits 16
      let found := (group.zipIdx.filter Prod.fst).map fun e ↦ 16 * k + e.2
      return found ++ (← readGroups rest)
  return (← readGroups groups.zipIdx).map UInt8.ofNat

/-- The number of bits that are set in front of one that is not; they are less than a bound. -/
def readCount (bound : Nat) : (fuel : Nat) → (count : Nat) → BzipM Nat
  | 0, _ => refuse
  | fuel + 1, count => do
    if !(← BitM.bit) then return count
    if bound ≤ count + 1 then refuse
    readCount bound fuel (count + 1)

/-- The entry at a place of a list, and the list with the entry in front. -/
def moveToFront {α : Type} (xs : List α) (k : Nat) : Option (α × List α) :=
  xs[k]?.map fun x ↦ (x, x :: xs.eraseIdx k)

/-- Which prefix code is used when. -/
def readSelectors (codes : Nat) : (count : Nat) → (recent : List Nat) → BzipM (List Nat)
  | 0, _ => return []
  | count + 1, recent => do
    let k ← readCount codes codes 0
    match moveToFront recent k with
    | none => refuse
    | some (code, recent) => return code :: (← readSelectors codes count recent)

/-- The length of a word, reached from another one in steps. The first argument bounds the number of bits. -/
def readLength : (fuel : Nat) → (length : Nat) → BzipM Nat
  | 0, _ => refuse
  | fuel + 1, length => do
    if length < 1 || longestWord < length then refuse
    if !(← BitM.bit) then return length
    readLength fuel (if ← BitM.bit then length - 1 else length + 1)

/-- The lengths of the words of some symbols, each reached from the one before. -/
def readLengths : (count : Nat) → (length : Nat) → BzipM (List Nat)
  | 0, _ => return []
  | count + 1, length => do
    let length ← readLength ((← get).bits.length + 1) length
    return length :: (← readLengths count length)

/-- The prefix codes for some number of symbols. -/
def readCodes (symbols : Nat) : (count : Nat) → BzipM (List PrefixCode)
  | 0 => return []
  | count + 1 => do
    let lengths ← readLengths symbols (← BitM.high 5)
    return PrefixCode.ofLengths (longestWord + 1) lengths :: (← readCodes symbols count)

/-- The bytes of a block before the rotations are undone, the last one first. -/
structure Column where
  /-- The bytes that were read. -/
  reversed : List UInt8 := []
  /-- Their number. -/
  size : Nat := 0
  /-- The bytes in use, one that was met later first. -/
  recent : List UInt8
  /-- The length of the run that is being read, and the weight of the next symbol for it. -/
  run : Nat := 0
  weight : Nat := 1

/-- The column with the run that was read, if it has no more bytes than a bound. -/
def Column.close (bound : Nat) (c : Column) : BzipM Column :=
  if bound < c.size + c.run then refuse
  else return { c with
    reversed := List.replicate c.run (c.recent.headD 0) ++ c.reversed
    size := c.size + c.run, run := 0, weight := 1 }

/-- A column after a symbol that stands for a part of a run or for a byte. The weight in a run has a bound of its
own. -/
def Column.add (bound : Nat) (c : Column) (symbol : Nat) : BzipM Column :=
  if symbol < 2 then
    if 0x200000 ≤ c.weight then refuse
    else return { c with run := c.run + c.weight * (symbol + 1), weight := 2 * c.weight }
  else do
    let c ← c.close bound
    if bound ≤ c.size then refuse
    match moveToFront c.recent (symbol - 1) with
      | none => refuse
      | some (b, recent) =>
        return { c with reversed := b :: c.reversed, size := c.size + 1, recent }

/-- The symbols of a block up to the one that ends it. The first argument is greater than the number of bits that
are left; the second one tells how many words are left for the code in use. -/
def readColumn (bound last : Nat) : (fuel left : Nat) → (codes : List PrefixCode) → Column → BzipM Column
  | 0, _, _, _ => throw .cut
  | fuel + 1, left, codes, column => do
    match (if left = 0 then codes.tail else codes) with
    | [] => refuse
    | code :: later =>
      let symbol ← code.read () 0
      if symbol = last then return ← column.close bound
      let column ← column.add bound symbol
      readColumn bound last fuel ((if left = 0 then groupSize else left) - 1) (code :: later) column

/-! ## Rotations -/

/-- For every place of the sorted bytes the place that it has in the column. -/
def sortedPlaces (column : List UInt8) : Array Nat :=
  let places := column.zipIdx.foldl (fun found e ↦ found.modify e.1.toNat (e.2 :: ·))
    (Array.replicate 256 ([] : List Nat))
  (places.toList.flatMap List.reverse).toArray

/-- The bytes of a text, from the place of its last byte in the column on. -/
def followPlaces (bytes : Array UInt8) (places : Array Nat) : (count place : Nat) → List UInt8
  | 0, _ => []
  | count + 1, place =>
    let next := places.getD place 0
    bytes.getD next 0 :: followPlaces bytes places count next

/-- The text whose rotations end in the bytes of a column, itself the one at a place. -/
def unrotate (column : List UInt8) (place : Nat) : List UInt8 :=
  followPlaces column.toArray (sortedPlaces column) column.length place

/-- The bytes of a text with counts behind four bytes that are the same. `same` bytes before the text are
`previous`. -/
def expand (previous : UInt8) : (same : Nat) → List UInt8 → List UInt8
  | _, [] => []
  | same, b :: rest =>
    if same = 4 then List.replicate b.toNat previous ++ expand b 0 rest
    else if b = previous then b :: expand b (same + 1) rest
    else b :: expand b 1 rest

/-! ## Blocks -/

/-- The bytes at the beginning of a block. -/
def blockMark : List UInt8 := [0x31, 0x41, 0x59, 0x26, 0x53, 0x59]

/-- The bytes at the end of a stream. -/
def endMark : List UInt8 := [0x17, 0x72, 0x45, 0x38, 0x50, 0x90]

/-- The rest of a block behind its mark, where at most some number of bytes stand in a block; its checksum. -/
def readBlock (bound : Nat) : BzipM UInt32 := do
  let sum := UInt32.ofNat (← BitM.high 32)
  let _ ← BitM.bit
  let place ← BitM.high 24
  if bound + 10 < place then refuse
  let used ← readBytes
  if used.isEmpty then refuse
  let codes ← BitM.high 3
  if codes < 2 || 6 < codes then refuse
  let groups ← BitM.high 15
  if groups < 1 then refuse
  let selectors ← readSelectors codes groups (List.range codes)
  let tables := (← readCodes (used.length + 2) codes).toArray
  let chosen := selectors.map fun k ↦ tables.getD k []
  let fuel := (← get).bits.length + 1
  let column ← readColumn bound (used.length + 1) fuel 0 ([] :: chosen) { recent := used }
  if column.size ≤ place then refuse
  let bytes := expand 0 0 (unrotate column.reversed.reverse place)
  if checksumHighFirst bytes != sum then refuse
  bytes.forM BitM.write
  return sum

/-- The checksum of a stream after a block more. -/
def addBlock (sum block : UInt32) : UInt32 := ((sum <<< 1) ||| (sum >>> 31)) ^^^ block

/-- The blocks up to the end of a stream. The first argument is greater than the number of bits that are left. -/
def readBlocks (bound : Nat) : (fuel : Nat) → (sum : UInt32) → BzipM Unit
  | 0, _ => throw .cut
  | fuel + 1, sum => do
    let first ← BitM.high 8
    if first = (endMark.headD 0).toNat then
      expect endMark.tail
      if (← BitM.high 32) != sum.toNat then refuse
      BitM.align
    else if first = (blockMark.headD 0).toNat then
      expect blockMark.tail
      readBlocks bound fuel (addBlock sum (← readBlock bound))
    else refuse

/-- A stream. -/
def readStream (bits : Nat) : BzipM Unit := do
  expect "BZh".toUTF8.toList
  let size ← BitM.high 8
  if size < '1'.toNat || '9'.toNat < size then refuse
  readBlocks (100000 * (size - '0'.toNat)) (bits + 1) 0

/-- The outcome of unpacking a bzip stream. -/
def unpack (bytes : List UInt8) : Outcome Unit :=
  unpackBits highFirst (readStream (8 * bytes.length)) bytes

end DegreeGraph.Packed.Bzip
