import DegreeGraph.Text.Printable
import DegreeGraph.Text.Utf8

/-!
# Quoted text

Text inside a message stands between quotation marks: single ones, or double ones when it holds a
single mark and no double one. The mark and the backslash are escaped by a backslash, tab, line feed
and carriage return have their letters, and a character that is not printable is written by its code
in two, four or eight hexadecimal digits.
-/

namespace DegreeGraph.Text

/-- The mark that surrounds a text. -/
def quotationMark (s : List Char) : Char :=
  if s.contains '\'' && !s.contains '"' then '"' else '\''

/-- The last `width` hexadecimal digits of a number, in lower case. -/
def hexDigits : (width : Nat) → Nat → List Char
  | 0, _ => []
  | width + 1, n => hexDigits width (n / 16) ++ [Nat.digitChar (n % 16)]

/-- The code of a character in the shortest of the three forms that holds it. -/
def codeEscape (c : Char) : List Char :=
  if c.toNat < 0x100 then '\\' :: 'x' :: hexDigits 2 c.toNat
  else if c.toNat < 0x10000 then '\\' :: 'u' :: hexDigits 4 c.toNat
  else '\\' :: 'U' :: hexDigits 8 c.toNat

/-- One character between marks. -/
def escapeChar (mark c : Char) : List Char :=
  if c == mark || c == '\\' then ['\\', c]
  else if c == '\t' then ['\\', 't']
  else if c == '\n' then ['\\', 'n']
  else if c == '\r' then ['\\', 'r']
  else if isPrintable c then [c]
  else codeEscape c

/-- The text between marks. -/
def quoteChars (s : List Char) : List Char :=
  let mark := quotationMark s
  mark :: s.flatMap (escapeChar mark) ++ [mark]

/-- The text between marks. -/
def quote (s : String) : String := String.ofList (quoteChars s.toList)

/-- Bytes between marks, with a letter in front; those that are no printable ASCII characters are written by
their codes. -/
def quoteBytes (bytes : List UInt8) : String :=
  let s := bytes.map fun b ↦ Char.ofNat b.toNat
  let mark := quotationMark s
  let body := s.flatMap fun c ↦ if c.toNat < 0x80 then escapeChar mark c else codeEscape c
  String.ofList ('b' :: mark :: body ++ [mark])

/-- The form of a bad byte in a text. -/
def looseEscape (b : UInt8) : List Char := ['\\', 'u', 'd', 'c'] ++ hexDigits 2 b.toNat

/-- The text in bytes between marks; bad bytes are written by codes that no character has. -/
def quoteLoose (bytes : List UInt8) : String :=
  let parts := Utf8.scan bytes
  let mark := quotationMark (parts.filterMap (·.toOption))
  let body := parts.flatMap fun
    | .ok c => escapeChar mark c
    | .error run => run.bytes.flatMap looseEscape
  String.ofList (mark :: body ++ [mark])

end DegreeGraph.Text
