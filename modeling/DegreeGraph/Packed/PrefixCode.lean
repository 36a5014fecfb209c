import DegreeGraph.Packed.Bits

/-!
# Prefix codes

A prefix code gives symbols words of bits, none of which begins another. It is told by the lengths of the words
alone: the words of one length count up in the order of their symbols, and a longer word comes behind all
shorter ones. So the code is a list of rows: the symbols with words of one bit, of two bits and so on. A word is
read by going down the rows: a number below the size of a row is the place of a symbol in it; else it loses the
size of the row and takes one bit more.
-/

namespace DegreeGraph.Packed

/-- A prefix code: in every row the symbols with words of one length. -/
abbrev PrefixCode := List (List Nat)

namespace PrefixCode

/-- The symbols with words of some length; those of length zero have no word. -/
def rowOf (lengths : List Nat) (length : Nat) : List Nat :=
  (lengths.zipIdx.filter fun e ↦ e.1 = length).map Prod.snd

/-- The code in which every symbol has a word of its length, with at least some number of rows. -/
def ofLengths (rows : Nat) (lengths : List Nat) : PrefixCode :=
  (List.range (lengths.foldl max rows)).map fun k ↦ rowOf lengths (k + 1)

/-- The number of words of the length of the last row that are left, if no row has more symbols than words are
left for it; `room` words are left for the first row. -/
def room? : (room : Nat) → PrefixCode → Option Nat
  | room, [] => some room
  | room, row :: rows =>
    if room < row.length then none
    else match rows with
      | [] => some (room - row.length)
      | _ => room? (2 * (room - row.length)) rows

/-- The number of words that are left in a code, if its words are not too many. -/
def unused? (code : PrefixCode) : Option Nat := room? 2 code

/-- The symbol of the next word of a stream. -/
def read {ε : Type} (trouble : ε) : PrefixCode → (word : Nat) → BitM ε Nat
  | [], _ => BitM.fail trouble
  | row :: rows, word => do
    let word := 2 * word + (← BitM.bit).toNat
    match row[word]? with
    | some symbol => return symbol
    | none => read trouble rows (word - row.length)

end PrefixCode

end DegreeGraph.Packed
