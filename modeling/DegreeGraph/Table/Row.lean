import DegreeGraph.Fault

/-!
# Rows of comma-separated text

A row is a line of fields between commas. A line ends with a line feed, a carriage return, or both; lines
of nothing but spaces and tabs are no rows. A field that begins with a double quote goes up to the next
single one, commas and line ends included, and two of them inside stand for one; what follows behind the
closing quote belongs to the field as well. Anywhere else a double quote is an ordinary character.

The end of a blank line that ends with a carriage return takes a comma with it. The comma comes back if spaces
or tabs follow and then anything but the end of the line.

A quoted field that is not closed is a failure of the text, but the rows above it are there to be looked at
first.
-/

namespace DegreeGraph

/-- The fields of a line, and the number of lines up to and with it. -/
structure Row where
  line : Nat
  fields : List (List Char)
deriving DecidableEq, Repr

/-- The rows of a text, and the failure that cuts it off. -/
structure Rows where
  rows : List Row
  fault : Option Fault

namespace Rows

/-- One row more at the top. -/
def cons (row : Row) (below : Rows) : Rows := { below with rows := row :: below.rows }

/-- Where a text is read. -/
inductive Place where
  /-- A line begins. -/
  | lineStart
  /-- A line begins behind the carriage return of a row. -/
  | afterReturn
  /-- A line begins behind the carriage return of a blank line. -/
  | afterBlank
  /-- The line has only held spaces and tabs. -/
  | margin
  /-- A field begins behind a comma. -/
  | fieldStart
  /-- In a field. -/
  | bare
  /-- Between double quotes. -/
  | quoted
  /-- Behind a double quote between double quotes. -/
  | closing
deriving DecidableEq, Repr

/-- Nothing but spaces and tabs is on the line. -/
def Place.isBlank : Place → Bool
  | lineStart | afterReturn | afterBlank | margin => true
  | _ => false

/-- A double quote opens a field here. -/
def Place.opens : Place → Bool
  | lineStart | afterReturn | afterBlank | fieldStart => true
  | _ => false

/-- A character belongs to the line end in front of it. -/
def Place.takes : Place → Char → Bool
  | afterReturn, c => c == '\n'
  | afterBlank, c => c == '\n' || c == ','
  | _, _ => false

/-- Where a line begins behind a carriage return. -/
def Place.afterCarriage (place : Place) : Place := if place.isBlank then afterBlank else afterReturn

/-- What has been read of a line: the number of lines before it, whether the line end in front of it has taken a
comma, its fields and the characters of the last field, both last first. -/
structure Line where
  before : Nat
  taken : Bool
  fields : List (List Char)
  field : List Char

namespace Line

/-- Nothing is read of a line behind a number of others. -/
def fresh (before : Nat) : Line := ⟨before, false, [], []⟩

/-- A character goes to the line end in front of the line. -/
def take (l : Line) (c : Char) : Line := { l with taken := c == ',' }

/-- The line behind its margin: a comma that was taken comes back. -/
def afterMargin (l : Line) : Line := if l.taken then { l with taken := false, fields := [[]] } else l

/-- One character more. -/
def push (l : Line) (c : Char) : Line := { l with field := c :: l.field }

/-- The field has ended. -/
def next (l : Line) : Line := { l with fields := l.field.reverse :: l.fields, field := [] }

/-- The line has ended. -/
def toRow (l : Line) : Row := ⟨l.before + 1, l.next.fields.reverse⟩

/-- The line is over, a row if it was not blank, and the rows below it follow. -/
def close (l : Line) (place : Place) (below : Rows) : Rows :=
  if place.isBlank then below else below.cons l.toRow

end Line

/-- A space or a tab. -/
def isMargin (c : Char) : Bool := c == ' ' || c == '\t'

/-- The rows of a text, from some place in a line on. -/
def scan (place : Place) (l : Line) : List Char → Rows
  | [] =>
    if place == .quoted then ⟨[], some (.openQuote l.before)⟩ else l.close place ⟨[], none⟩
  | c :: rest =>
    if place == .quoted then
      if c == '"' then scan .closing l rest else scan .quoted (l.push c) rest
    else if place == .closing && c == '"' then scan .quoted (l.push c) rest
    else if place.takes c then scan .lineStart (l.take c) rest
    else if c == '\n' then l.close place (scan .lineStart (.fresh (l.before + 1)) rest)
    else if c == '\r' then l.close place (scan place.afterCarriage (.fresh (l.before + 1)) rest)
    else if place.isBlank && isMargin c then scan .margin (l.push c) rest
    else if place.opens && c == '"' then scan .quoted l rest
    else
      let l := if place == .margin then l.afterMargin else l
      if c == ',' then scan .fieldStart l.next rest else scan .bare (l.push c) rest

/-- The rows of a text; a mark of the byte order at its beginning is no part of it. -/
def ofText (text : String) : Rows :=
  scan .lineStart (.fresh 0)
    (match text.toList with
      | '\uFEFF' :: rest => rest
      | s => s)

end Rows

end DegreeGraph
