import DegreeGraph.Packed.Bzip
import DegreeGraph.Packed.Lzma
import DegreeGraph.Packed.Tape.Member

/-!
# Tape archives

An archive is a sequence of blocks of 512 bytes. A member has a header of one block and then its bytes, filled up
to whole blocks; a block of zeros ends the archive.

An archive may itself be packed as a whole. What the path says about that does not count: every way to unpack
it is tried, and the first one counts in which the first member can be read.
-/

namespace DegreeGraph.Packed.Tape

/-! ## Archives -/

/-- An archive of which the first member was read. -/
structure Archive where
  source : Source
  /-- The first member, unless the archive is empty. -/
  first : Option Member
  reading : Reading

namespace Archive

/-- A number that is greater than that of the blocks of a source. -/
def depth (source : Source) : Nat := source.bytes.length / blockSize + 2

/-- The archive in a source. If there is none, something is wrong with it unless it cannot be unpacked. -/
def ofSource (source : Source) : Except Fault (Except (Option TapeTrouble) Archive) :=
  match ((TapeM.nextMember (depth source)).run source).run.run {} with
  | (.ok first, reading) => .ok (.ok ⟨source, first, reading⟩)
  | (.error (.failed (.badTape trouble)), _) => .ok (.error (some trouble))
  | (.error (.header trouble), _) | (.error (.later trouble), _) => .ok (.error (some trouble))
  | (.error (.ended _), _) => .ok (.error none)
  | (.error (.failed fault), _) => .error fault

/-- What stops reading once there is an archive. -/
def faultOf : Stop → Fault
  | .header trouble | .later trouble => .badTape trouble
  | .ended fault | .failed fault => fault

/-- The members of an archive. -/
def members (a : Archive) : Except Fault (List Member) :=
  match a.first with
  | none => .ok []
  | some m =>
    let rest := TapeM.members (depth a.source) (a.source.bytes.length + 2)
    (((rest.run a.source).run.run a.reading).1.map (m :: ·)).mapError faultOf

/-- The archive in some bytes. No text is packed in the gzip format, but an empty one is taken for an empty
archive. -/
def ofBytes (medium : Medium) (bytes : List UInt8) : Except Fault Archive := do
  match ← ofSource (.ofPacked (fun _ ↦ .brokenStream) (unpackAll Bzip.unpack bytes)) with
  | .ok a => return a
  | .error bzip =>
    match ← ofSource (.ofPacked .badLzma (unpackAll Lzma.unpack bytes)) with
    | .ok a => return a
    | .error lzma =>
      match ← ofSource ⟨medium, bytes, none⟩ with
      | .ok a => return a
      | .error plain =>
        throw (.notTape (if bytes.isEmpty then some .empty else none) bzip lzma (plain.getD .empty))

end Archive

/-! ## The bytes of a member -/

/-- What a name amounts to: the number of slashes in front of it, at most two, and its parts, without those that lead
nowhere and those that are undone. -/
def normalName (name : List UInt8) : Nat × List (List UInt8) :=
  let slashes := (name.takeWhile (· == slash)).length
  let leading := if slashes ≤ 2 then slashes else 1
  let dot := '.'.toUInt8
  let step (parts : List (List UInt8)) (part : List UInt8) : List (List UInt8) :=
    if part.isEmpty || part = [dot] then parts
    else if part ≠ [dot, dot] then parts ++ [part]
    else if parts.isEmpty then if leading = 0 then [part] else []
    else if parts.getLast? = some [dot, dot] then parts ++ [part]
    else parts.dropLast
  (leading, (name.splitOn slash).foldl step [])

/-- The name of what a link in the folder of a member leads to. -/
def linkTarget (h : Header) : List UInt8 :=
  let folder := h.name.reverse.dropWhile (· != slash)
  let trimmed := folder.dropWhile (· == slash)
  let kept := (if trimmed.isEmpty then folder else trimmed).reverse
  if kept.isEmpty || h.link.isEmpty then kept ++ h.link else kept ++ slash :: h.link

/-- The bytes of a member that is alone in its archive. -/
def bytesOf (source : Source) (m : Member) : Except Fault (List UInt8) :=
  let h := m.header
  if h.name ≠ withoutSlashes h.name then .error (.noMember "filename" h.name)
  else if h.hasBytes then
    let parts := partsOf h.size 0 m.start (m.spans.getD [⟨0, h.size⟩])
    source.readParts parts 0 h.size.toNat
  else if h.kind = '1' then .error (.noMember "linkname" h.link)
  else if h.kind = '2' then
    let target := linkTarget h
    .error (if normalName target = normalName h.name then .endlessLink else .noMember "linkname" target)
  else .error .notFile

/-- The bytes of the only member of an archive that was read from a path. -/
def unpack (medium : Medium) (path : String) (bytes : List UInt8) : Except Fault (List UInt8) := do
  let a ← Archive.ofBytes medium bytes
  match ← a.members with
  | [] => throw (.noMembers .tape path)
  | [m] => bytesOf a.source m
  | ms => throw (.manyMembers .tape (ms.map fun m ↦ Text.quoteLoose m.header.name))

end DegreeGraph.Packed.Tape
