import DegreeGraph.Text.CodeRange

/-!
# Blank characters

The characters that separate: the Unicode property of white space together with the four
information separators U+001C to U+001F. A degree list is trimmed of them and split at them.

`isBlank_of_isWhitespace` says that the table only adds to the four characters that the core
library calls white space.
-/

namespace DegreeGraph.Text

/-- The ranges of blank characters. -/
def blankRanges : List CodeRange :=
  [(0x09, 0x0D), (0x1C, 0x20), (0x85, 0x85), (0xA0, 0xA0), (0x1680, 0x1680), (0x2000, 0x200A),
    (0x2028, 0x2029), (0x202F, 0x202F), (0x205F, 0x205F), (0x3000, 0x3000)]

/-- The character is blank. -/
def isBlank (c : Char) : Bool := inRanges blankRanges c.toNat

theorem isBlank_of_isWhitespace (c : Char) (h : c.isWhitespace = true) : isBlank c = true := by
  simp [Char.isWhitespace] at h
  rcases h with ((h | h) | h) | h <;> subst h <;> decide

/-- Drops the characters of a class from both ends. -/
def trimBy (drop : Char → Bool) (s : List Char) : List Char :=
  ((s.dropWhile drop).reverse.dropWhile drop).reverse

/-- Puts a run that was read last character first in front of the later runs, unless it is empty. -/
def closeRun (run : List Char) (later : List (List Char)) : List (List Char) :=
  if run.isEmpty then later else run.reverse :: later

/-- The runs of a text whose first run has already begun with `run`, read last character first. -/
def runsFrom (separates : Char → Bool) (run : List Char) : List Char → List (List Char)
  | [] => closeRun run []
  | c :: rest =>
    if separates c then closeRun run (runsFrom separates [] rest)
    else runsFrom separates (c :: run) rest

/-- The maximal runs of characters outside a class of separators, in order. -/
def runsBetween (separates : Char → Bool) (s : List Char) : List (List Char) :=
  runsFrom separates [] s

end DegreeGraph.Text
