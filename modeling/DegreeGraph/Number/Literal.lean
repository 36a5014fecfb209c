import DegreeGraph.Number.Integer
import DegreeGraph.Number.Nearest

/-!
# Literals of floating-point numbers

A literal is an optional sign followed by digits, a point and an exponent, or by one of the words
`inf`, `infinity` and `nan` in any case. At least one digit stands before the exponent, single
underscores may stand between digits, and digits of any script count. The value is the double nearest
to the number written; what is too large is infinite.
-/

namespace DegreeGraph.Number

open DegreeGraph.Text

/-- A character with a digit of any script replaced by the Latin one of its value. -/
def latinDigit (c : Char) : Char :=
  match digitValue? c with
  | some d => Nat.digitChar d
  | none => c

/-- The text without its underscores, each of which must stand between two digits. -/
def dropUnderscores? : (afterDigit : Bool) → List Char → Option (List Char)
  | _, [] => some []
  | afterDigit, '_' :: c :: rest =>
    if afterDigit && c.isDigit then (dropUnderscores? true rest).map (c :: ·) else none
  | _, ['_'] => none
  | _, c :: rest => (dropUnderscores? c.isDigit rest).map (c :: ·)

/-- The value of Latin digits. -/
def digitsValue (ds : List Char) : Nat := ofDigits (ds.map fun c ↦ c.toNat - '0'.toNat)

/-- The exponent part of a literal: nothing, or a mark, an optional sign and digits. -/
def exponentPart? : List Char → Option Int
  | [] => some 0
  | mark :: rest =>
    if mark == 'e' || mark == 'E' then
      let negative := rest.head? == some '-'
      let digits := if negative || rest.head? == some '+' then rest.drop 1 else rest
      if digits.isEmpty || !digits.all (·.isDigit) then none
      else some (if negative then -(digitsValue digits : Int) else digitsValue digits)
    else none

/-- The value of an unsigned decimal with Latin digits. -/
def unsignedDecimal? (s : List Char) : Option Float :=
  let whole := s.takeWhile (·.isDigit)
  let afterWhole := s.dropWhile (·.isDigit)
  let pointed := afterWhole.head? == some '.'
  let afterPoint := if pointed then afterWhole.drop 1 else afterWhole
  let fraction := if pointed then afterPoint.takeWhile (·.isDigit) else []
  let afterFraction := if pointed then afterPoint.dropWhile (·.isDigit) else afterPoint
  let digits := whole ++ fraction
  if digits.isEmpty then none
  else
    (exponentPart? afterFraction).map fun e ↦
      nearestDecimal (digitsValue digits) (e - fraction.length)

/-- The value of an unsigned literal with Latin digits. -/
def unsignedLiteral? (s : List Char) : Option Float :=
  match String.ofList (s.map Char.toLower) with
  | "inf" => some (1.0 / 0.0)
  | "infinity" => some (1.0 / 0.0)
  | "nan" => some (0.0 / 0.0)
  | _ => unsignedDecimal? s

/-- The value of a literal with blanks around it. -/
def readFloat? (s : List Char) : Option Float :=
  match dropUnderscores? false ((trimBy isPadding s).map latinDigit) with
  | some ('-' :: rest) => (unsignedLiteral? rest).map fun x ↦ -x
  | some ('+' :: rest) => unsignedLiteral? rest
  | some rest => unsignedLiteral? rest
  | none => none

end DegreeGraph.Number
