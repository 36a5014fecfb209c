import DegreeGraph.Fault
import DegreeGraph.Packed.Tape.Header

/-!
# Records of tape archives

Some headers are followed by records that take the place of fields of the next header, or of all headers that
follow. A record is a line: its length, a space, a name, an equality sign and a value. The length counts all of
the line.

Fields keep the order in which their names came first; a later value of a name replaces an earlier one.
-/

namespace DegreeGraph.Packed.Tape

open DegreeGraph.Text DegreeGraph.Number

/-- A field: its name and its value. -/
abbrev Field := String × List UInt8

/-- Fields that take the place of those of headers. -/
abbrev Fields := List Field

namespace Fields

/-- The value of the field of some name. -/
def value? (fields : Fields) (name : String) : Option (List UInt8) := fields.lookup name

/-- There is a field of some name. -/
def has (fields : Fields) (name : String) : Bool := (fields.value? name).isSome

/-- A field is put where its name is, or at the end. -/
def put (fields : Fields) (f : Field) : Fields :=
  if fields.has f.1 then fields.map fun g ↦ if g.1 == f.1 then f else g else fields ++ [f]

/-- Fields are put in order. -/
def putAll (fields later : Fields) : Fields := later.foldl put fields

end Fields

/-! ## Lines -/

/-- A byte is a decimal digit. -/
def isDigitByte (b : UInt8) : Bool := '0'.toUInt8 ≤ b && b ≤ '9'.toUInt8

/-- The greatest number of digits of a length. -/
def lengthDigits : Nat := 20

/-- The least length of a record. -/
def leastLength : Nat := 5

/-- The first record of some bytes, and its length. -/
def record? (bytes : List UInt8) : Option (Field × Nat) :=
  let digits := bytes.takeWhile isDigitByte
  let length := ofDigits (digits.map fun b ↦ b.toNat - '0'.toNat)
  let body := (bytes.take (length - 1)).drop (digits.length + 1)
  let name := body.takeWhile (· != '='.toUInt8)
  if !digits.isEmpty && digits.length ≤ lengthDigits && bytes[digits.length]? = some ' '.toUInt8
      && leastLength ≤ length && length ≤ bytes.length && bytes[length - 1]? = some '\n'.toUInt8
      && !name.isEmpty && name.length < body.length then
    some ((Utf8.decodeLenient name, body.drop (name.length + 1)), length)
  else none

/-- The records in some bytes, which end before a zero. The first argument is greater than the number of bytes. -/
def recordsOf : (fuel : Nat) → List UInt8 → Except Stop Fields
  | 0, _ | _, [] => .ok []
  | fuel + 1, b :: rest =>
    if b = 0 then .ok []
    else match record? (b :: rest) with
      | none => .error (.header .header)
      | some (f, length) => do
        let later ← recordsOf fuel ((b :: rest).drop length)
        return f :: later

/-! ## Numbers in values -/

/-- The integer that a value is. -/
def integerOfValue (value : List UInt8) : Except Fault Int :=
  integerOf (quoteLoose value) (Utf8.decodeLenient value).toList

/-- The integer that a line is, of which the bytes are read one by one. -/
def integerOfLine (line : List UInt8) : Except Fault Int :=
  integerOf (quoteBytes line) (line.map fun b ↦ if b < 0x80 then Char.ofNat b.toNat else Utf8.replacement)

/-- The integer that a value is, which has to be one. -/
def strictInteger (value : List UInt8) : Except Stop Int :=
  match (Utf8.decode value).toOption.bind fun s ↦ readInt? s.toList with
  | some z => .ok z
  | none => .error (.header .header)

/-! ## Spans -/

/-- Pairs of numbers as spans. -/
def spansOf : List Int → List Span
  | offset :: size :: rest => ⟨offset, size⟩ :: spansOf rest
  | _ => []

/-- The numbers of a list between commas. -/
def listedNumbers (value : List UInt8) : Except Fault (List Int) :=
  (value.splitOn ','.toUInt8).mapM integerOfValue

/-- The numbers in the records of some name. -/
def numbersNamed (records : Fields) (name : String) : Except Stop (List Int) :=
  (records.filter (·.1 == name)).mapM fun f ↦ strictInteger f.2

/-- The spans that records tell one by one. -/
def recordedSpans (records : Fields) : Except Stop (List Span) := do
  let offsets ← numbersNamed records "GNU.sparse.offset"
  let sizes ← numbersNamed records "GNU.sparse.numbytes"
  return offsets.zipWith Span.mk sizes

end DegreeGraph.Packed.Tape
