import DegreeGraph.Fault
import DegreeGraph.Total

/-!
# Headers of tape archives

A header is a block of 512 bytes with fields at fixed places. Names are kept as bytes, since they may be no text.
The numbers in the fields are written in digits of base eight, or in bytes behind a mark. One field holds the sum
of the bytes of the header.

A header of a special kind tells in which runs the bytes of a member are kept; between them the member holds zeros.
-/

namespace DegreeGraph.Packed.Tape

open DegreeGraph.Text DegreeGraph.Number

/-- Why reading stops. -/
inductive Stop where
  /-- Something is wrong with the first header that is read. -/
  | header (trouble : TapeTrouble)
  /-- Something is wrong with a header that should follow another one. -/
  | later (trouble : TapeTrouble)
  /-- A packed archive cannot be unpacked as far as it is read. -/
  | ended (fault : Fault)
  /-- The archive is not read any further at all. -/
  | failed (fault : Fault)

/-! ## Fields -/

/-- The number of bytes of a block. -/
def blockSize : Nat := 512

/-- The number of bytes in the blocks that some number of bytes takes. -/
def inBlocks (size : Int) : Int := Int.fdiv (size + (blockSize - 1 : Nat)) blockSize * blockSize

/-- The bytes of a block at some offset. -/
def field (block : List UInt8) (offset size : Nat) : List UInt8 := (block.drop offset).take size

/-- The name in some bytes, which ends before the first zero. -/
def nameIn (bytes : List UInt8) : List UInt8 := bytes.takeWhile (· != 0)

/-- The number of a literal in base eight. -/
def octal? (s : List Char) : Option Nat :=
  match literalDigits? false s with
  | some digits =>
    if digits.all (· < 8) then some (digits.foldl (fun n d ↦ 8 * n + d) 0) else none
  | none => none

/-- The number of a literal in base eight behind the letter that may say so. -/
def marked? : List Char → Option Nat
  | '0' :: 'o' :: '_' :: rest | '0' :: 'O' :: '_' :: rest => octal? rest
  | '0' :: 'o' :: rest | '0' :: 'O' :: rest => octal? rest
  | s => octal? s

/-- The integer of a literal in base eight. -/
def signed? : List Char → Option Int
  | '-' :: rest => (marked? rest).map fun n ↦ -(n : Int)
  | '+' :: rest => (marked? rest).map fun n ↦ (n : Int)
  | s => (marked? s).map fun n ↦ (n : Int)

/-- The integer in a field, if there is one. It is written in bytes behind a mark, or in digits; no digits are a
zero. -/
def number? (bytes : List UInt8) : Option Int :=
  let ofBytes (rest : List UInt8) : Int := rest.foldl (fun n b ↦ 256 * n + b.toNat) 0
  match bytes with
  | 0x80 :: rest => some (ofBytes rest)
  | 0xFF :: rest => some (ofBytes rest - twoTo (8 * rest.length))
  | _ =>
    let digits := nameIn bytes
    if digits.any (0x80 ≤ ·) then none
    else
      let s := trimBy isBlank (digits.map fun b ↦ Char.ofNat b.toNat)
      if s.isEmpty then some 0 else signed? s

/-- The two sums of the bytes of a header: without signs and with signs. The field that holds the sum counts as
blanks. -/
def sums (header : List UInt8) : List Int :=
  let counted := header.take 148 ++ header.drop 156
  let low := total (counted.map fun b ↦ (b.toNat : Int))
  [256 + low, 256 + low - 256 * counted.countP (0x80 ≤ ·)]

/-! ## Spans -/

/-- A run of bytes of a member: the place in the member where it begins, and the number of its bytes. -/
structure Span where
  offset : Int
  size : Int
deriving DecidableEq, Repr

/-- The integer in a field of a block that may end before it. -/
def numberIn (bytes : List UInt8) : Except Stop Int :=
  if bytes.isEmpty then .error (.failed .shortBlock)
  else match number? bytes with
    | some z => .ok z
    | none => .error (.header .header)

/-- Some spans that are written one behind the other. -/
def spansIn : (count : Nat) → List UInt8 → Except Stop (List Span)
  | 0, _ => .ok []
  | count + 1, bytes => do
    let offset ← numberIn (field bytes 0 12)
    let size ← numberIn (field bytes 12 12)
    let later ← spansIn count (bytes.drop 24)
    return ⟨offset, size⟩ :: later

/-- What a header tells about the spans of a member. -/
structure SpanMap where
  spans : List Span
  /-- More spans follow the header. -/
  goesOn : Bool
  /-- The number of bytes of the member. -/
  size : Int
deriving Repr

/-- The spans that a header tells. -/
def spanMapOf (block : List UInt8) : Except Stop SpanMap := do
  let spans ← spansIn 4 (block.drop 386)
  let size ← numberIn (field block 483 12)
  return ⟨spans, block.getD 482 0 != 0, size⟩

/-! ## Headers -/

/-- What a header tells. -/
structure Header where
  name : List UInt8
  /-- The number of bytes that follow. -/
  size : Int
  /-- The letter of the kind. -/
  kind : Char
  /-- The name of the member that a link leads to. -/
  link : List UInt8
  /-- The spans of a member that is not kept as a whole. -/
  map : Option SpanMap
deriving Repr

/-- The member is a folder. -/
def Header.isFolder (h : Header) : Bool := h.kind == '5'

/-- The letters of members that hold no bytes. -/
def emptyKinds : List Char := ['1', '2', '3', '4', '5', '6']

/-- Bytes follow the header of a member. -/
def Header.hasBytes (h : Header) : Bool := !emptyKinds.contains h.kind

/-- The letter of members that are kept in spans. -/
def spannedKind : Char := 'S'

/-- The letters of kinds whose names do not stand in two fields. -/
def singleNameKinds : List Char := ['L', 'K', spannedKind]

/-- The byte between the parts of a name. -/
def slash : UInt8 := '/'.toUInt8

/-- A name without slashes at its end. -/
def withoutSlashes (name : List UInt8) : List UInt8 := (name.reverse.dropWhile (· == slash)).reverse

/-- A name without the slash at its end. -/
def withoutSlash (name : List UInt8) : List UInt8 := if name.getLast? = some slash then name.dropLast else name

/-- The header, where the name of a folder has no slashes at its end. -/
def Header.trimmed (h : Header) : Header := if h.isFolder then { h with name := withoutSlashes h.name } else h

/-- The fields of a header that have to hold integers, by their offsets and sizes, behind the one that holds the
sum. -/
def numberFields : List (Nat × Nat) :=
  [(100, 8), (108, 8), (116, 8), (124, 12), (136, 12), (329, 8), (337, 8)]

/-- The header that a block should be. -/
def headerOf (block : List UInt8) : Except Stop Header := do
  if block.isEmpty then throw (.header .noHeader)
  if block.length < blockSize then throw (.header .short)
  if block.all (· = 0) then throw (.header .ended)
  let sum ← numberIn (field block 148 8)
  if !(sums block).contains sum then throw (.header .sum)
  if numberFields.any fun f ↦ (number? (field block f.1 f.2)).isNone then throw (.header .header)
  let name := nameIn (field block 0 100)
  let letter := Char.ofNat (block.getD 156 0).toNat
  let kind := if letter = '\x00' && name.getLast? = some slash then '5' else letter
  let map ← if kind = spannedKind then some <$> spanMapOf block else pure none
  let header : Header := {
    name, kind, map
    size := (number? (field block 124 12)).getD 0
    link := nameIn (field block 157 100) }
  let header := header.trimmed
  let before := nameIn (field block 345 155)
  if before.isEmpty || singleNameKinds.contains kind then return header
  return { header with name := before ++ slash :: header.name }

end DegreeGraph.Packed.Tape
