import DegreeGraph.Number.Power
import DegreeGraph.Text.Blank
import DegreeGraph.Text.DecimalDigit

/-!
# Integer literals

An integer literal is an optional sign and a run of decimal digits of any script, in which single
underscores may stand between digits. At most `digitLimit` digits are read; a longer literal is
refused, leading zeros counted. Blanks around the literal are allowed, the four information
separators excepted.

The printer writes a sign only in front of a negative number and no leading zero. It writes no more
digits than are read (`isWritable`).
-/

namespace DegreeGraph.Number

open DegreeGraph.Text

/-- The greatest number of digits that a literal may have, and the greatest that is written. -/
def digitLimit : Nat := 4300

/-- The digits of a literal, most significant first; `afterDigit` says that an underscore may
follow. -/
def literalDigits? : (afterDigit : Bool) → List Char → Option (List Nat)
  | afterDigit, [] => if afterDigit then some [] else none
  | afterDigit, c :: rest =>
    if c == '_' then
      if afterDigit then literalDigits? false rest else none
    else
      match digitValue? c with
      | some d => (literalDigits? true rest).map (d :: ·)
      | none => none

/-- The number that digits denote in base ten, most significant first. -/
def ofDigits (digits : List Nat) : Nat := digits.foldl (fun n d ↦ 10 * n + d) 0

/-- A text without the sign in front of it. -/
def dropSign : List Char → List Char
  | '-' :: rest => rest
  | '+' :: rest => rest
  | s => s

/-- The number of an unsigned literal. -/
def readNat? (s : List Char) : Option Nat :=
  match literalDigits? false s with
  | some digits => if digits.length ≤ digitLimit then some (ofDigits digits) else none
  | none => none

/-- The number of a literal without blanks around it. -/
def readSigned? : List Char → Option Int
  | '-' :: rest => (readNat? rest).map fun n ↦ -(n : Int)
  | '+' :: rest => (readNat? rest).map fun n ↦ (n : Int)
  | s => (readNat? s).map fun n ↦ (n : Int)

/-- The blanks that a number may have around it. -/
def isPadding (c : Char) : Bool := isBlank c && !(0x1C ≤ c.toNat && c.toNat ≤ 0x1F)

/-- The number of a literal with blanks around it. -/
def readInt? (s : List Char) : Option Int := readSigned? (trimBy isPadding s)

/-- The number of digits up to the first character that is neither a digit nor an underscore between two; none
if an underscore stands elsewhere, or if there is no digit. -/
def runSize? : (afterDigit : Bool) → List Char → Option Nat
  | afterDigit, [] => if afterDigit then some 0 else none
  | afterDigit, c :: rest =>
    if c == '_' then
      if afterDigit then runSize? false rest else none
    else
      match digitValue? c with
      | some _ => (runSize? true rest).map (· + 1)
      | none => if afterDigit then some 0 else none

/-- The number of digits at the beginning of a text, behind blanks and a sign. -/
def leadingSize? (s : List Char) : Option Nat := runSize? false (dropSign (trimBy isPadding s))

/-- An integer has 64 bits with a sign. -/
def isInt64 (z : Int) : Bool := -(twoTo 63 : Nat) ≤ z && z < twoTo 63

/-- An integer has 64 bits without a sign. -/
def isUInt64 (z : Int) : Bool := 0 ≤ z && z < twoTo 64

/-- A number in decimal digits, however many they are. -/
def writeInt (z : Int) : String := toString z

/-- A number has no more digits than are written. -/
def isWritable (z : Int) : Bool := (Nat.toDigits 10 z.natAbs).length ≤ digitLimit

end DegreeGraph.Number
