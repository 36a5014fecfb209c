/-!
# Texts as bytes

A character is written in one to four bytes, the first of which tells how many follow. Bytes that follow no
such rule are bad; a bad run ends before the first byte that could not follow. A text can be read strictly,
where the first bad run is the answer, or leniently, where a replacement character stands for each.
-/

namespace DegreeGraph.Text.Utf8

/-- Why bytes are no character. -/
inductive Flaw where
  /-- No character starts with the byte. -/
  | start
  /-- A byte does not continue a character. -/
  | continuation
  /-- The text ends within a character. -/
  | ended
deriving DecidableEq, Repr

/-- The name of a flaw. -/
def Flaw.text : Flaw → String
  | start => "invalid start byte"
  | continuation => "invalid continuation byte"
  | ended => "unexpected end of data"

/-- A run of bad bytes: where it starts, its bytes, and what is wrong with them. -/
structure BadRun where
  place : Nat
  bytes : List UInt8
  flaw : Flaw
deriving DecidableEq, Repr

/-- What the first byte of a character tells: the number of bytes that follow, its share of the code, and the
least and the greatest value of the byte behind it. -/
structure Lead where
  following : Nat
  share : Nat
  least : Nat
  greatest : Nat

/-- What a byte tells as the first one of a character. -/
def lead? (b : UInt8) : Option Lead :=
  let n := b.toNat
  if n < 0x80 then some ⟨0, n, 0x80, 0xBF⟩
  else if n < 0xC2 then none
  else if n < 0xE0 then some ⟨1, n - 0xC0, 0x80, 0xBF⟩
  else if n < 0xF0 then
    some ⟨2, n - 0xE0, if n = 0xE0 then 0xA0 else 0x80, if n = 0xED then 0x9F else 0xBF⟩
  else if n < 0xF5 then
    some ⟨3, n - 0xF0, if n = 0xF0 then 0x90 else 0x80, if n = 0xF4 then 0x8F else 0xBF⟩
  else none

/-- The code of a character from its share so far and the bytes that follow, or the flaw; and the number of
bytes that were read. -/
def follow : (following share least greatest : Nat) → List UInt8 → Except Flaw Nat × Nat
  | 0, share, _, _, _ => (.ok share, 0)
  | _ + 1, _, _, _, [] => (.error .ended, 0)
  | following + 1, share, least, greatest, b :: rest =>
    if least ≤ b.toNat && b.toNat ≤ greatest then
      let (code, read) := follow following (64 * share + (b.toNat - 0x80)) 0x80 0xBF rest
      (code, read + 1)
    else (.error .continuation, 0)

/-- The first character of a text that begins with a byte, or the flaw; and the number of bytes behind the first
that were read. -/
def first (b : UInt8) (rest : List UInt8) : Except Flaw Char × Nat :=
  match lead? b with
  | none => (.error .start, 0)
  | some lead =>
    let (code, read) := follow lead.following lead.share lead.least lead.greatest rest
    (code.map Char.ofNat, read)

/-- Characters and bad runs, in order. The first argument is greater than the number of bytes. -/
def parts : (fuel place : Nat) → List UInt8 → List (Except BadRun Char)
  | 0, _, _ | _, _, [] => []
  | fuel + 1, place, b :: rest =>
    let (char, read) := first b rest
    char.mapError (⟨place, b :: rest.take read, ·⟩)
      :: parts fuel (place + read + 1) (rest.drop read)

/-- The characters and bad runs of some bytes. -/
def scan (bytes : List UInt8) : List (Except BadRun Char) := parts (bytes.length + 1) 0 bytes

/-- The text of some bytes, or the first bad run. -/
def decode (bytes : List UInt8) : Except BadRun String :=
  ((scan bytes).mapM id).map String.ofList

/-- The character that stands for a bad run. -/
def replacement : Char := Char.ofNat 0xFFFD

/-- The text of some bytes with replacement characters for bad runs. -/
def decodeLenient (bytes : List UInt8) : String :=
  String.ofList ((scan bytes).map fun part ↦ part.toOption.getD replacement)

/-- The bytes of a text. -/
def encode (s : String) : List UInt8 := s.toUTF8.toList

end DegreeGraph.Text.Utf8
