import DegreeGraph.Packed.Bzip
import DegreeGraph.Packed.Deflate
import DegreeGraph.Packed.Lzma
import DegreeGraph.Packed.Medium
import DegreeGraph.Text.CodePage

/-!
# Zip archives

An archive ends with a record that tells where its directory is. The directory lists the members: for each its
name, how its bytes are packed, how many they are packed and unpacked, their checksum, and the place of its
header. The bytes follow the header and end before the directory. The archive may stand behind other bytes of a
file, so places are counted from where the directory is found.

A large archive has another record in front of the end record, and numbers that are too large for an entry of the
directory stand in a field behind it.
-/

namespace DegreeGraph.Packed.Zip

open DegreeGraph.Text DegreeGraph.Number

/-! ## Fields -/

/-- The number of some bytes, the lowest first. -/
def number (bytes : List UInt8) : Nat := bytes.foldr (fun b n ↦ b.toNat + 256 * n) 0

/-- The bytes of a record at some offset. -/
def field (record : List UInt8) (offset size : Nat) : List UInt8 := (record.drop offset).take size

/-- The number in a record at some offset. -/
def word (record : List UInt8) (offset size : Nat) : Nat := number (field record offset size)

/-- The bytes that mark a record, the last two of which tell its kind. -/
def mark (kind : List UInt8) : List UInt8 := "PK".toUTF8.toList ++ kind

/-! ## The end record -/

/-- The bytes that mark the end record. -/
def endMark : List UInt8 := mark [5, 6]

/-- The length of the end record without a comment. -/
def endSize : Nat := 22

/-- The greatest number of bytes from the end record on. -/
def endLimit : Nat := 65536 + endSize

/-- The place of the last occurrence of some bytes. -/
def lastPlace? (needle : List UInt8) : (place : Nat) → List UInt8 → Option Nat
  | _, [] => none
  | place, b :: rest =>
    match lastPlace? needle (place + 1) rest with
    | some found => some found
    | none => if needle.isPrefixOf (b :: rest) then some place else none

/-- The place of the end record. One without a comment is found at the very end; else the last mark counts. -/
def endPlace? (bytes : List UInt8) : Option Nat :=
  if bytes.length < endSize then none
  else
    let last := bytes.length - endSize
    let record := bytes.drop last
    if endMark.isPrefixOf record && word record 20 2 = 0 then some last
    else
      let first := bytes.length - endLimit
      (lastPlace? endMark first (bytes.drop first)).filter (· ≤ last)

/-- Where a directory is. -/
structure Extent where
  /-- The number of its bytes. -/
  size : Nat
  /-- The place where it should begin. -/
  offset : Nat
  /-- The place where it ends. -/
  stop : Int

/-- The length of the record that a locator stands behind. -/
def largeEndSize : Nat := 56

/-- The length of a locator. -/
def locatorSize : Nat := 20

/-- The place some bytes before another one. In memory nothing is before the beginning, so the beginning is
taken. -/
def placeBefore? (medium : Medium) (place count : Nat) : Option Nat :=
  if count ≤ place || medium = .memory then some (place - count) else none

/-- Where the large end record tells that the directory is, if there is one. It stands in front of its locator, and
that in front of the end record at a place. -/
def largeExtent? (medium : Medium) (bytes : List UInt8) (place : Nat) : Except Fault (Option Extent) := do
  match placeBefore? medium place locatorSize with
  | none => return none
  | some found =>
    let locator := field bytes found locatorSize
    if !(mark [6, 7]).isPrefixOf locator then return none
    if word locator 4 4 ≠ 0 || 1 < word locator 16 4 then throw (.badZip .disks)
    match placeBefore? medium place (locatorSize + largeEndSize) with
    | none => throw (.badZip .noEnd)
    | some found =>
      let record := field bytes found largeEndSize
      if record.length < largeEndSize || !(mark [6, 6]).isPrefixOf record then return none
      let stop : Int := (place : Int) - (locatorSize + largeEndSize : Nat)
      return some ⟨word record 40 8, word record 48 8, stop⟩

/-- Where the directory of an archive is. -/
def extentOf (medium : Medium) (bytes : List UInt8) : Except Fault Extent := do
  match endPlace? bytes with
  | none => throw (.badZip .noEnd)
  | some place =>
    let record := bytes.drop place
    return (← largeExtent? medium bytes place).getD ⟨word record 12 4, word record 16 4, place⟩

/-! ## The directory -/

/-- A member as the directory lists it. -/
structure Member where
  /-- The name, as it is written. -/
  listed : String
  flags : Nat
  method : Nat
  checksum : Nat
  packedSize : Nat
  size : Nat
  /-- The place of the header behind that from which places are counted. -/
  offset : Nat
deriving Repr

/-- The name of a member, which ends before the first character of code zero. -/
def Member.name (m : Member) : String := String.ofList (m.listed.toList.takeWhile (· != '\x00'))

/-- A bit of the flags of a member. -/
def Member.has (m : Member) (bit : Nat) : Bool := m.flags.testBit bit

/-- The bit that says that a name is written in bytes of variable length. -/
def encodingBit : Nat := 11

/-- A name in a record with some flags. -/
def nameOf (flags : Nat) (bytes : List UInt8) : Except Fault String :=
  if flags.testBit encodingBit then (Utf8.decode bytes).mapError .notUtf8
  else .ok (CodePage.decode bytes)

/-- The length of an entry of the directory without what varies. -/
def entrySize : Nat := 46

/-- The last version of the format that is known, in tenths. -/
def lastVersion : Nat := 63

/-- A number that stands for one in a large field. -/
def isPlaceholder (n : Nat) : Bool := n = twoTo 32 - 1

/-- A number and what follows it in a large field, unless a smaller one stands in the entry. -/
def largeNumber (isAsked : Bool) (number : ZipNumber) (small : Nat) (data : List UInt8) :
    Except Fault (Nat × List UInt8) :=
  if !isAsked then .ok (small, data)
  else if data.length < 8 then .error (.badZip (.noNumber number))
  else .ok (word data 0 8, data.drop 8)

/-- The member with the numbers of a large field. -/
def Member.withLarge (m : Member) (data : List UInt8) : Except Fault Member := do
  let isAsked := isPlaceholder m.size || m.size = twoTo 64 - 1
  let (size, data) ← largeNumber isAsked .size m.size data
  let (packedSize, data) ← largeNumber (isPlaceholder m.packedSize) .packedSize m.packedSize data
  let (offset, _) ← largeNumber (isPlaceholder m.offset) .place m.offset data
  return { m with size, packedSize, offset }

/-- The member with what its extra fields tell, none of which is longer than what is left. The first argument is
greater than the number of bytes. -/
def Member.withExtra : (fuel : Nat) → Member → List UInt8 → Except Fault Member
  | 0, m, _ => .ok m
  | fuel + 1, m, bytes => do
    if bytes.length < 4 then return m
    let kind := word bytes 0 2
    let size := word bytes 2 2
    if bytes.length < size + 4 then throw (.badZip (.extra kind size))
    let m ← if kind = 1 then m.withLarge (field bytes 4 size) else pure m
    m.withExtra fuel (bytes.drop (size + 4))

/-- The member of an entry. -/
def memberOf (entry rest : List UInt8) : Except Fault Member := do
  let flags := word entry 8 2
  let nameSize := word entry 28 2
  let listed ← nameOf flags (rest.take nameSize)
  let version := word entry 6 1
  if lastVersion < version then throw (.unknownZip (.version version))
  let extra := (rest.drop nameSize).take (word entry 30 2)
  let m : Member := {
    listed, flags
    method := word entry 10 2
    checksum := word entry 16 4
    packedSize := word entry 20 4
    size := word entry 24 4
    offset := word entry 42 4 }
  Member.withExtra (extra.length + 1) m extra

/-- The members that a directory lists. The first argument is greater than its number of bytes. -/
def membersOf : (fuel : Nat) → (directory : List UInt8) → (missing : Nat) → Except Fault (List Member)
  | 0, _, _ => .ok []
  | fuel + 1, directory, missing => do
    if missing = 0 then return []
    let entry := directory.take entrySize
    if entry.length < entrySize then throw (.badZip .shortDirectory)
    if !(mark [1, 2]).isPrefixOf entry then throw (.badZip .directoryMark)
    let rest := directory.drop entrySize
    let m ← memberOf entry rest
    let varying := word entry 28 2 + word entry 30 2 + word entry 32 2
    let later ← membersOf fuel (rest.drop varying) (missing - (entrySize + varying))
    return m :: later

/-- The directory of an archive. -/
structure Directory where
  /-- The place where it begins. -/
  start : Nat
  /-- The place from which others are counted. -/
  origin : Int
  members : List Member

/-- The directory of an archive. -/
def directoryOf (medium : Medium) (bytes : List UInt8) : Except Fault Directory := do
  let extent ← extentOf medium bytes
  let start := extent.stop - extent.size
  if start < 0 then throw (.badZip .badOffset)
  let listed := field bytes start.toNat extent.size
  return ⟨start.toNat, start - extent.offset, ← membersOf (extent.size + 1) listed extent.size⟩

/-! ## The bytes of a member -/

/-- The length of a header without what varies. -/
def headerSize : Nat := 30

/-- The packed bytes of a member. Its header has to agree with the directory, and the bytes have to end before that
begins. -/
def packedBytes (medium : Medium) (bytes : List UInt8) (directory : Directory) (m : Member) :
    Except Fault (List UInt8) := do
  let place ← medium.reach (directory.origin + m.offset)
  let header := field bytes place headerSize
  if header.length < headerSize then throw (.badZip .shortHeader)
  if !(mark [3, 4]).isPrefixOf header then throw (.badZip .headerMark)
  let rest := bytes.drop (place + headerSize)
  let name := rest.take (word header 26 2)
  if m.has 5 then throw (.unknownZip .patches)
  if m.has 6 then throw (.unknownZip .encryption)
  if (← nameOf (word header 6 2) name) != m.listed then throw (.badZip (.names m.listed name))
  let rest := rest.drop (word header 26 2 + word header 28 2)
  if directory.start < bytes.length - rest.length + m.packedSize then throw (.badZip (.overlap m.listed))
  if m.has 0 then throw (.locked m.name)
  return rest.take m.packedSize

/-- The ways to pack a member. -/
inductive Method where
  | stored
  | deflated
  | bzip
  | lzma

/-- The way to pack that has a number. -/
def method? : Nat → Option Method
  | 0 => some .stored
  | 8 => some .deflated
  | 12 => some .bzip
  | 14 => some .lzma
  | _ => none

/-- The bytes that were written until a stream ended or was cut off. -/
def answerOf {ε : Type} (fault : ε → Fault) (outcome : Outcome ε) : Except Fault (List UInt8) :=
  match outcome.rest with
  | .ok _ | .error .cut => .ok outcome.bytes
  | .error (.broken trouble) => .error (fault trouble)

/-- What unpacking some bytes gives. -/
def Method.unpack (packed : List UInt8) : Method → Except Fault (List UInt8)
  | stored => .ok packed
  | deflated => answerOf .badDeflate (Deflate.unpack packed)
  | bzip => answerOf (fun _ ↦ .brokenStream) (Bzip.unpack packed)
  | lzma => answerOf .badLzma (Lzma.unpackBare packed)

/-- The bytes of a member of an archive, which have to have the checksum. -/
def bytesOf (medium : Medium) (bytes : List UInt8) (directory : Directory) (m : Member) :
    Except Fault (List UInt8) := do
  let packed ← packedBytes medium bytes directory m
  match method? m.method with
  | none => throw (.unknownZip .method)
  | some method =>
    let taken := (← method.unpack packed).take m.size
    if (checksumLowFirst taken).toNat != m.checksum then throw (.badZip (.checksum m.name))
    return taken

/-- The bytes of the only member of an archive that was read from a path. -/
def unpack (medium : Medium) (path : String) (bytes : List UInt8) : Except Fault (List UInt8) := do
  let directory ← directoryOf medium bytes
  match directory.members with
  | [] => throw (.noMembers .zip path)
  | [m] => bytesOf medium bytes directory m
  | ms => throw (.manyMembers .zip (ms.map fun m ↦ quote m.name))

end DegreeGraph.Packed.Zip
