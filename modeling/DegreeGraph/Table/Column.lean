import DegreeGraph.Fault
import DegreeGraph.Table.Cell

/-!
# Columns of a table

The cells of a column decide together what they are. Whole numbers of 64 bits with a sign are tried first,
then those without one, then whole numbers of any size, decimals, and truth values; what nothing fits is
text. Missing cells fit everything. The first cell that does not fit decides what is tried next: after a
whole number that is too large the greater wholes, after anything else the decimals.

Two mixtures stay text although every cell is a number: whole numbers that need the sixty-fourth bit next
to negative ones, and next to missing ones. Then, and when a whole number of any size is no literal, the
words for missing values are texts as well.

A long table is cut into pieces with a number of rows that depends on its width, and the pieces of a column
decide apart (`pieceLength`). Pieces of numbers of different formats become doubles; any other pieces stay
as they are.
-/

namespace DegreeGraph

open DegreeGraph.Number

/-- What a cell of a column holds. -/
inductive Column.Entry where
  | missing
  | truth (value : Bool)
  | whole (value : Int)
  | decimal (value : Float)
  | text (value : List Char)

/-- A column: its entries, first row first. -/
abbrev Column := List Column.Entry

namespace Column

namespace Entry

/-- A whole number or a truth value in double precision. -/
def inDouble : Entry → Entry
  | truth b => decimal (if b then 1.0 else 0.0)
  | whole z => decimal (nearestToInt z)
  | e => e

/-- The whole number that an entry is. -/
def whole? : Entry → Option Int
  | truth b => some (if b then 1 else 0)
  | whole z => some z
  | text s => Cell.whole? s
  | _ => none

/-- The double that an entry is, if it is a number; a whole number beyond the doubles is a failure. -/
def double? : Entry → Except Fault (Option Float)
  | missing => .ok none
  | truth b => .ok (some (if b then 1.0 else 0.0))
  | whole z => match finiteToInt? z with
    | some x => .ok (some x)
    | none => .error .oversizedForDouble
  | decimal x => .ok (some x)
  | text s => .ok (Cell.number? s)

/-- The integer of a double when its fraction is cut off. -/
def truncated (x : Float) : Except Fault Int :=
  match (Binary64.ofFloat x).truncated? with
  | some z => .ok z
  | none => .error .infiniteNumber

/-- The integer of an entry. -/
def integer : Entry → Except Fault Int
  | missing => .error .notANumber
  | truth b => .ok (if b then 1 else 0)
  | whole z => .ok z
  | decimal x => truncated x
  | text s => integerIn (String.ofList s)

end Entry

/-! ## The entries of words -/

/-- The words of a column, with nothing for those that are missing. -/
abbrev Words := List (Option (List Char))

/-- How the entries of a piece of a column are held. -/
inductive Format where
  | signed
  | unsigned
  | double
  | truths
  | mixed
deriving DecidableEq, Repr

/-- A piece of a column. -/
structure Piece where
  format : Format
  entries : List Entry

/-- The entries of words that are not missing, or nothing if a word has none. -/
def entriesOf? (read? : List Char → Option Entry) : Words → Option (List Entry)
  | [] => some []
  | none :: rest => (entriesOf? read? rest).map (.missing :: ·)
  | some word :: rest =>
    match read? word, entriesOf? read? rest with
    | some entry, some entries => some (entry :: entries)
    | _, _ => none

/-- Words as they are. -/
def texts (cells : List (List Char)) : Piece := ⟨.mixed, cells.map .text⟩

/-- How words are read as whole numbers of 64 bits: all of them are, or the first that is not is too large
or no whole number. -/
inductive Reading (α : Type) where
  | all (values : α)
  | tooLarge
  | noWhole

/-- A word as a whole number within bounds; one out of bounds is too large if nothing stands behind it. -/
def readWhole (within : Int → Bool) (word : List Char) : Reading Int :=
  match Cell.leadingWhole? word with
  | none => .noWhole
  | some (z, tail) =>
    if within z then if tail.all Cell.isPad then .all z else .noWhole
    else if tail.isEmpty then .tooLarge else .noWhole

/-- Words as whole numbers with a sign. -/
def readInt64 : Words → Reading (List Entry)
  | [] => .all []
  | none :: rest =>
    match readInt64 rest with
    | .all entries => .all (.missing :: entries)
    | r => r
  | some word :: rest =>
    match readWhole isInt64 word with
    | .tooLarge => .tooLarge
    | .noWhole => .noWhole
    | .all z => match readInt64 rest with
      | .all entries => .all (.whole z :: entries)
      | r => r

/-- What words without a sign have shown. -/
structure Unsigned where
  entries : List Entry := []
  /-- One begins with a minus sign. -/
  minus : Bool := false
  /-- One needs the sixty-fourth bit. -/
  great : Bool := false
  /-- One is missing. -/
  missing : Bool := false

/-- Words as whole numbers without a sign; what begins with a minus sign is looked at no further. -/
def readUInt64 : Words → Reading Unsigned
  | [] => .all {}
  | none :: rest =>
    match readUInt64 rest with
    | .all u => .all { u with missing := true }
    | r => r
  | some word :: rest =>
    if Cell.isMinus word then
      match readUInt64 rest with
      | .all u => .all { u with minus := true }
      | r => r
    else match readWhole isUInt64 word with
      | .tooLarge => .tooLarge
      | .noWhole => .noWhole
      | .all z => match readUInt64 rest with
        | .all u => .all { u with entries := .whole z :: u.entries, great := u.great || !isInt64 z }
        | r => r

/-- An entry is missing. -/
def isMissing : Entry → Bool
  | .missing => true
  | _ => false

/-- Truth values; missing ones among them make a mixture. -/
def truths (entries : List Entry) : Piece :=
  ⟨if entries.any isMissing then .mixed else .truths, entries⟩

/-- Words that are no whole numbers. -/
def ofOthers (cells : List (List Char)) (words : Words) : Piece :=
  match entriesOf? (fun s ↦ (Cell.decimal? s).map .decimal) words with
  | some entries => ⟨.double, entries⟩
  | none => match entriesOf? (fun s ↦ (Cell.truth? s).map .truth) words with
    | some entries => truths entries
    | none => ⟨.mixed, cells.zipWith (fun cell word ↦ if word.isSome then .text cell else .missing) words⟩

/-- Words as whole numbers of any size. -/
def ofLarge (cells : List (List Char)) (words : Words) : Piece :=
  match entriesOf? (fun s ↦ (Cell.largeWhole? s).map .whole) words with
  | some entries => ⟨.mixed, entries⟩
  | none => texts cells

/-- Words with a whole number that is too large for a sign. -/
def ofGreat (cells : List (List Char)) (words : Words) : Piece :=
  match readUInt64 words with
  | .tooLarge => ofLarge cells words
  | .noWhole => ofOthers cells words
  | .all u =>
    if u.great && (u.minus || u.missing) then texts cells
    else if u.minus then ofLarge cells words
    else ⟨.unsigned, u.entries⟩

/-- The piece of a column in cells. -/
def pieceOf (cells : List (List Char)) : Piece :=
  let words : Words := cells.map fun c ↦ if Cell.isMissing c then none else some c
  match readInt64 words with
  | .tooLarge => ofGreat cells words
  | .noWhole => ofOthers cells words
  | .all entries =>
    if entries.any isMissing then ⟨.double, entries.map Entry.inDouble⟩ else ⟨.signed, entries⟩

/-! ## Pieces -/

/-- A format is one of numbers. -/
def Format.isNumeric : Format → Bool
  | signed | unsigned | double => true
  | _ => false

/-- Numbers of different formats are among formats with nothing else that is not a truth value: then all of
them become doubles. -/
def Format.needDouble (formats : List Format) : Bool :=
  if formats.all Format.isNumeric then formats.any (· != formats.headD .mixed)
  else formats.all (fun f ↦ f == .truths || f == .signed || f == .unsigned)
    && formats.contains .signed && formats.contains .unsigned

/-- The column of pieces. -/
def join (pieces : List Piece) : Column :=
  let entries := pieces.flatMap Piece.entries
  if Format.needDouble (pieces.map Piece.format) then entries.map Entry.inDouble else entries

/-- Doubles a length while the double stays below a bound. -/
def doubled (bound : Nat) : (fuel length : Nat) → Nat
  | 0, length => length
  | fuel + 1, length => if length * 2 < bound then doubled bound fuel (length * 2) else length

/-- The number of fields that a piece of a table should not reach. -/
def pieceSize : Nat := twoTo 20

/-- The number of rows in a piece of a table of some width: the greatest power of two that is, when doubled,
below the rows that a piece should not reach, or one. -/
def pieceLength (width : Nat) : Nat := doubled (pieceSize / width) 20 1

/-- A list in pieces of some length, the last of which may be shorter. -/
def inPieces {α : Type} (length : Nat) : (fuel : Nat) → List α → List (List α)
  | 0, xs => [xs]
  | fuel + 1, xs =>
    if xs.length ≤ length then [xs] else xs.take length :: inPieces length fuel (xs.drop length)

/-- The column of cells in a table of some width. -/
def ofCells (width : Nat) (cells : List (List Char)) : Column :=
  let length := pieceLength width
  join ((inPieces length (cells.length / length) cells).map pieceOf)

/-! ## The numbers of a column -/

/-- The numbers of a column: whole ones, or doubles with nothing where there is no number. -/
inductive Numbers where
  | exact (values : List Int)
  | rounded (values : List (Option Float))

/-- Whole numbers fit together into 64 bits, with a sign or without one. -/
def fitTogether (zs : List Int) : Bool := zs.all isInt64 || zs.all isUInt64

/-- The doubles of entries, first one first. -/
def doubles : Column → Except Fault (List (Option Float))
  | [] => .ok []
  | entry :: rest => do
    let x ← entry.double?
    return x :: (← doubles rest)

/-- The numbers of a column: exact if all of them are whole and fit together, and doubles otherwise. -/
def numbers (c : Column) : Except Fault Numbers :=
  match (c.mapM Entry.whole?).filter fitTogether with
  | some zs => .ok (.exact zs)
  | none => (doubles c).map .rounded

/-- The integer in a row. -/
def integerAt (c : Column) (row : Nat) : Except Fault Int := (c.getD row .missing).integer

end Column

end DegreeGraph
