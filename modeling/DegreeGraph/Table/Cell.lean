import DegreeGraph.Number.Literal

/-!
# Numbers in the cells of a table

A cell holds a whole number if it is an optional sign and digits, and a decimal if a point or an exponent
comes in, or a word for infinity; blanks may stand around the digits. A decimal is the double nearest to the
number written, however many digits it has, unless it has a plus sign and, in a column of decimals, blanks
around it: then the first seventeen digits are scaled by a power of ten, each step being rounded.

A few words and the empty cell stand for a value that is missing.
-/

namespace DegreeGraph.Cell

open DegreeGraph.Number

/-- The cells that stand for a missing value. -/
def missingWords : List String :=
  ["", "#N/A", "#N/A N/A", "#NA", "-1.#IND", "-1.#QNAN", "-NaN", "-nan", "1.#IND", "1.#QNAN", "<NA>",
    "N/A", "NA", "NULL", "NaN", "None", "n/a", "nan", "null"]

/-- A cell stands for a missing value. -/
def isMissing (s : List Char) : Bool := missingWords.contains (String.ofList s)

/-- The blanks that may stand around a number. -/
def isPad (c : Char) : Bool := c == ' ' || (9 ≤ c.toNat && c.toNat ≤ 13)

/-- A text in capital letters. -/
def inCapitals (s : List Char) : String := String.ofList (s.map Char.toUpper)

/-- The truth value that a cell holds. -/
def truth? (s : List Char) : Option Bool :=
  match inCapitals s with
  | "TRUE" => some true
  | "FALSE" => some false
  | _ => none

/-- A sign in front of a text, and the rest. -/
def takeSign : List Char → Bool × List Char
  | '-' :: rest => (true, rest)
  | '+' :: rest => (false, rest)
  | s => (false, s)

/-- An integer of some size, or its opposite. -/
def signed (negative : Bool) (n : Nat) : Int := if negative then -(n : Int) else n

/-- The whole number at the beginning of a cell, and what is left of the cell. -/
def leadingWhole? (s : List Char) : Option (Int × List Char) :=
  let (negative, rest) := takeSign (s.dropWhile isPad)
  let digits := rest.takeWhile (·.isDigit)
  if digits.isEmpty then none
  else some (signed negative (digitsValue digits), rest.dropWhile (·.isDigit))

/-- A cell begins with a minus sign. -/
def isMinus (s : List Char) : Bool := (s.dropWhile isPad).head? == some '-'

/-- The whole number of any size that a cell holds; underscores may stand between its digits. -/
def largeWhole? (s : List Char) : Option Int :=
  if s.all (·.toNat < 128) then readSigned? (Text.trimBy isPad s) else none

/-- The exponent at the beginning of a text, if the text has one, and the rest. -/
def exponent (s : List Char) : Int × List Char :=
  match s with
  | mark :: rest =>
    if mark == 'e' || mark == 'E' then
      let (negative, rest) := takeSign rest
      let digits := rest.takeWhile (·.isDigit)
      if digits.isEmpty then (0, s)
      else (signed negative (digitsValue digits), rest.drop digits.length)
    else (0, s)
  | [] => (0, [])

/-- A decimal in the digits of a cell: its sign, the digits in front of the point and behind it, and the
exponent. -/
structure Numeral where
  sign : Option Char
  ahead : List Char
  behind : List Char
  exponent : Int
  /-- Blanks stand around it. -/
  padded : Bool

/-- The sign at the beginning of a text. -/
def signOf (s : List Char) : Option Char := s.head?.filter fun c ↦ c == '-' || c == '+'

/-- The decimal in the digits of a cell. -/
def numeral? (s : List Char) : Option Numeral :=
  let start := s.dropWhile isPad
  let sign := signOf start
  let rest := if sign.isSome then start.drop 1 else start
  let ahead := rest.takeWhile (·.isDigit)
  let rest := rest.dropWhile (·.isDigit)
  let pointed := rest.head? == some '.'
  let rest := if pointed then rest.drop 1 else rest
  let behind := if pointed then rest.takeWhile (·.isDigit) else []
  let rest := if pointed then rest.dropWhile (·.isDigit) else rest
  if ahead.isEmpty && behind.isEmpty then none
  else
    let (e, rest) := exponent rest
    if rest.all isPad then some ⟨sign, ahead, behind, e, start.length < s.length || !rest.isEmpty⟩
    else none

namespace Numeral

/-- The numeral has a plus sign. -/
def hasPlus (n : Numeral) : Bool := n.sign == some '+'

/-- A size with the sign of the numeral. -/
def withSign (n : Numeral) (size : Float) : Float := if n.sign == some '-' then -size else size

/-- The double nearest to the numeral. -/
def nearest (n : Numeral) : Float :=
  n.withSign (nearestDecimal (digitsValue (n.ahead ++ n.behind)) (n.exponent - n.behind.length))

/-- The number of digits that are looked at when a numeral is scaled. -/
def digitsScaled : Nat := 17

/-- A number times a power of ten, both in double precision; below the powers that there are, in two steps. -/
def scale (x : Float) (e : Int) : Float :=
  let power (k : Int) : Float := nearestDecimal 1 k
  if x == 0.0 then x
  else if 0 ≤ e then x * power e
  else if -308 ≤ e then x / power (-e)
  else x / power (-308 - e) / power 308

/-- The first digits of the numeral as a double, scaled by a power of ten. -/
def scaled (n : Numeral) : Float :=
  let ahead := n.ahead.take digitsScaled
  let behind := n.behind.take (digitsScaled - ahead.length)
  let dropped := n.ahead.length - ahead.length
  n.withSign (scale (nearestToInt (digitsValue (ahead ++ behind)))
    (n.exponent + dropped - behind.length))

end Numeral

/-- The infinite number that a cell names. -/
def infinity? (s : List Char) : Option Float :=
  match inCapitals s with
  | "INF" => some (1.0 / 0.0)
  | "+INF" => some (1.0 / 0.0)
  | "INFINITY" => some (1.0 / 0.0)
  | "+INFINITY" => some (1.0 / 0.0)
  | "-INF" => some (-1.0 / 0.0)
  | "-INFINITY" => some (-1.0 / 0.0)
  | _ => none

/-- The decimal that a cell in a column of decimals holds. -/
def decimal? (s : List Char) : Option Float :=
  match numeral? s with
  | some n => some (if n.hasPlus && n.padded then n.scaled else n.nearest)
  | none => infinity? s

/-- The whole number that a cell in a column of texts holds, and nothing if the cell holds none or one with more
digits than a literal may have. -/
def whole? (s : List Char) : Option Int :=
  match leadingWhole? s with
  | some (_, rest) => if rest.all isPad then readInt? s else none
  | none => none

/-- A cell holds a whole number of any length. -/
def isWhole (s : List Char) : Bool := (leadingWhole? s).any fun found ↦ found.2.all isPad

/-- The number that a cell in a column of texts holds; a whole number with more digits than a literal may have is
none. -/
def number? (s : List Char) : Option Float :=
  if isWhole s && (whole? s).isNone then none
  else match numeral? s with
    | some n => some (if n.hasPlus then n.scaled else n.nearest)
    | none => infinity? s

end DegreeGraph.Cell
