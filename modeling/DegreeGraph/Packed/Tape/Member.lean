import DegreeGraph.Packed.Tape.Spans

/-!
# Members of tape archives

A header is followed by the bytes of a member, unless it is of a special kind: then what follows belongs to the
next header. It may be a name that is too long for a header, or fields for the next header or for all of them.
The spans of a member are told by its header, in blocks behind it, in fields, or in lines at the beginning of
its bytes.
-/

namespace DegreeGraph.Packed.Tape

open DegreeGraph.Text DegreeGraph.Number

/-- A member of an archive. -/
structure Member where
  header : Header
  /-- The place where its bytes begin. -/
  start : Int
  /-- The spans of its bytes, unless they are kept as a whole. -/
  spans : Option (List Span)

namespace Member

/-- The place behind the blocks of a member. -/
def stop (m : Member) : Int := if m.header.hasBytes then m.start + inBlocks m.header.size else m.start

/-- A member with a field in place of its own. -/
def put (m : Member) (f : Field) : Except Fault Member :=
  let h := m.header
  match f.1 with
  | "GNU.sparse.name" => .ok { m with header := { h with name := f.2 } }
  | "GNU.sparse.size" | "GNU.sparse.realsize" => do
    return { m with header := { h with size := ← integerOfValue f.2 } }
  | "path" => .ok { m with header := { h with name := withoutSlashes f.2 } }
  | "linkpath" => .ok { m with header := { h with link := f.2 } }
  | "size" =>
    .ok { m with header := { h with size := (readInt? (Utf8.decodeLenient f.2).toList).getD 0 } }
  | _ => .ok m

/-- A member with fields in place of its own. -/
def putAll (m : Member) : Fields → Except Fault Member
  | [] => .ok m
  | f :: rest => do (← m.put f).putAll rest

/-- A folder without slashes at its end. -/
def trimmed (m : Member) : Member := { m with header := m.header.trimmed }

/-- A folder without the slash at its end. -/
def trimmedOnce (m : Member) : Member :=
  if m.header.isFolder then { m with header := { m.header with name := withoutSlash m.header.name } } else m

end Member

namespace TapeM

/-! ## Spans -/

/-- The number of spans in a block behind a header. -/
def spansPerBlock : Nat := 21

/-- The spans in the blocks behind a header. The first argument is greater than the number of blocks. -/
def spansBehind : (fuel : Nat) → TapeM (List Span)
  | 0 => return []
  | fuel + 1 => do
    let block ← bytes blockSize
    let found ← ofBytes (spansIn spansPerBlock block)
    let found := found.filter fun s ↦ s.offset ≠ 0 && s.size ≠ 0
    match block[504]? with
    | none => throw (.failed .shortBlock)
    | some mark => if mark = 0 then return found else return found ++ (← spansBehind fuel)

/-- The number in the first line of some bytes, which may end in the next block, and what follows the line. -/
def number (buffer : List UInt8) : TapeM (Int × List UInt8) := do
  let ending := '\n'.toUInt8
  let buffer ← if buffer.contains ending then pure buffer else do pure (buffer ++ (← bytes blockSize))
  let line := buffer.takeWhile (· != ending)
  if line.length = buffer.length then throw (.failed .openLine)
  return (← ofAnswer (integerOfLine line), buffer.drop (line.length + 1))

/-- Some numbers in lines. -/
def numbers : (count : Nat) → (buffer : List UInt8) → TapeM (List Int)
  | 0, _ => return []
  | count + 1, buffer => do
    let (z, buffer) ← number buffer
    return z :: (← numbers count buffer)

/-- The spans in lines behind their number. -/
def writtenSpans : TapeM (List Span) := do
  let (count, buffer) ← number []
  return spansOf (← numbers (2 * count.toNat) buffer)

/-- A member with the spans that fields tell, some of which may be told by records. -/
def withSpans (fields records : Fields) (m : Member) : TapeM Member := do
  match fields.value? "GNU.sparse.map" with
  | some value => return { m with spans := spansOf (← ofAnswer (listedNumbers value)) }
  | none =>
    if fields.has "GNU.sparse.size" then return { m with spans := ← ofBytes (recordedSpans records) }
    else if fields.value? "GNU.sparse.major" = some ['1'.toUInt8]
        && fields.value? "GNU.sparse.minor" = some ['0'.toUInt8] then
      let spans ← writtenSpans
      return { m with spans, start := (← get).place }
    else return m

/-! ## Members -/

/-- The member of a header. -/
def plain (h : Header) : TapeM Member := do
  let m : Member := ⟨h, (← get).place, none⟩
  setNext m.stop
  return (← ofAnswer (m.putAll (← get).common)).trimmed

/-- The member of a header that tells spans. -/
def spanned (fuel : Nat) (h : Header) (map : SpanMap) : TapeM Member := do
  let spans := map.spans ++ (← if map.goesOn then spansBehind fuel else pure [])
  let m : Member := ⟨h, (← get).place, spans⟩
  setNext m.stop
  return { m with header := { h with size := map.size } }

/-- The next member. The first argument is greater than the number of blocks. -/
def member : (fuel : Nat) → TapeM Member
  | 0 => throw (.header .noHeader)
  | fuel + 1 => do
    let h ← ofBytes (headerOf (← bytes blockSize))
    match h.map, h.kind with
    | some map, _ => spanned fuel h map
    | none, 'L' =>
      let name := nameIn (← bytes (inBlocks h.size))
      let m ← following (member fuel)
      return { m with header := { m.header with name } }.trimmedOnce
    | none, 'K' =>
      let link := nameIn (← bytes (inBlocks h.size))
      let m ← following (member fuel)
      return { m with header := { m.header with link } }.trimmedOnce
    | none, 'g' =>
      let own ← bytes (inBlocks h.size)
      let records ← ofBytes (recordsOf (own.length + 1) own)
      modify fun r ↦ { r with common := r.common.putAll records }
      let m ← following (member fuel)
      withSpans (← get).common records m
    | none, 'x' | none, 'X' =>
      let own ← bytes (inBlocks h.size)
      let records ← ofBytes (recordsOf (own.length + 1) own)
      let fields := (← get).common.putAll records
      let m ← following (member fuel)
      let m ← withSpans fields records m
      let m ← ofAnswer (m.putAll fields)
      if fields.has "size" then setNext m.stop
      return m
    | none, _ => plain h

/-- The member that begins at the place where the next one should begin, if there is one. What is wrong with its first
header ends the archive, but nothing may be wrong with the first header of all. -/
def nextMember (fuel : Nat) : TapeM (Option Member) := do
  let r ← get
  if r.next ≠ r.place then
    if r.next = 0 then return none
    moveTo (r.next - 1)
    if (← bytes 1).isEmpty then throw (.failed (.badTape .data))
  tryCatch (some <$> member fuel) fun
    | .header .ended => return none
    | .header trouble => do
      if (← get).next = 0 then
        throw (.failed (.badTape (if trouble = .noHeader then .empty else trouble)))
      return none
    | .later trouble => throw (.failed (.badTape trouble))
    | stop => throw stop

/-- The members from the place on where the next one should begin. Both arguments are greater than the number of
blocks. -/
def members (depth : Nat) : (fuel : Nat) → TapeM (List Member)
  | 0 => return []
  | fuel + 1 => do
    match ← nextMember depth with
    | none => return []
    | some m => return m :: (← members depth fuel)

end TapeM

end DegreeGraph.Packed.Tape
