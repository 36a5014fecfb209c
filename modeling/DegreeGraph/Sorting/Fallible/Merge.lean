import DegreeGraph.Sorting.Fallible.Run

/-!
# Merging two runs

Two runs that stand side by side are merged from the front or from the end, and what is in its place already is
left alone. The entries are taken one at a time until one run has given many in a row; then as many as go first
are counted by leaps and taken together, from the left run and from the right one in turn, as long as this pays.
How many in a row are many is learned: it falls while leaps pay and rises when they cease to.

A merge from the end is a merge from the front of the reversed runs, in which the greater entry goes first. The
merge is over when the run that is set aside has one entry left, which goes last, or when the other has none.
-/

namespace DegreeGraph.Fallible

variable {α ε : Type}

/-- The least number of entries that are worth a search by leaps. -/
def leapGain : Nat := 7

/-- The state of a merge: two runs, how many entries are taken from each, what was taken, and how many entries in
a row are many. -/
structure Merging (α : Type) where
  left : Array α
  right : Array α
  fromLeft : Nat
  fromRight : Nat
  taken : Array α
  many : Nat

/-- The comparison and the direction of a merge. -/
structure Direction (α ε : Type) where
  before : Before α ε
  /-- The merge goes on from the end. -/
  backward : Bool

namespace Merging

/-- The number of entries that the left run has still. -/
def leftSize (m : Merging α) : Nat := m.left.size - m.fromLeft

/-- The number of entries that the right run has still. -/
def rightSize (m : Merging α) : Nat := m.right.size - m.fromRight

/-- Takes entries from the left run. -/
def takeLeft (m : Merging α) (count : Nat) : Merging α :=
  { m with
    taken := m.taken ++ m.left.extract m.fromLeft (m.fromLeft + count)
    fromLeft := m.fromLeft + count }

/-- Takes entries from the right run. -/
def takeRight (m : Merging α) (count : Nat) : Merging α :=
  { m with
    taken := m.taken ++ m.right.extract m.fromRight (m.fromRight + count)
    fromRight := m.fromRight + count }

/-- What is left needs no comparison. -/
def isOver (m : Merging α) (backward : Bool) : Bool :=
  if backward then m.rightSize ≤ 1 || m.leftSize == 0 else m.leftSize ≤ 1 || m.rightSize == 0

/-- All entries, once what is left needs no comparison. -/
def result (m : Merging α) (backward : Bool) : Array α :=
  if backward then ((m.takeLeft m.leftSize).takeRight m.rightSize).taken
  else ((m.takeRight m.rightSize).takeLeft m.leftSize).taken

end Merging

namespace Direction

/-- An entry of the left run goes before one of the right run. -/
def leftFirst (d : Direction α ε) (l r : α) : Except ε Bool :=
  if d.backward then d.before r l else notBefore d.before r l

/-- An entry of the right run goes before one of the left run. -/
def rightFirst (d : Direction α ε) (l r : α) : Except ε Bool := (d.leftFirst l r).map (!·)

/-- The number of entries of the left run that go before the next one of the right run. -/
def leadOfLeft (d : Direction α ε) (m : Merging α) : Except ε Nat :=
  match m.right[m.fromRight]? with
  | none => .ok 0
  | some r =>
    countByLeaps (fun i ↦ testAt m.left (d.leftFirst · r) (m.fromLeft + i)) d.backward m.leftSize

/-- The number of entries of the right run that go before the next one of the left run. -/
def leadOfRight (d : Direction α ε) (m : Merging α) : Except ε Nat :=
  match m.left[m.fromLeft]? with
  | none => .ok 0
  | some l =>
    countByLeaps (fun i ↦ testAt m.right (d.rightFirst l) (m.fromRight + i)) d.backward m.rightSize

/-- How the entries are taken. -/
inductive Manner where
  /-- One at a time; so many in a row came from the left run, and from the right one. -/
  | single (fromLeft fromRight : Nat)
  /-- By leaps. -/
  | leaping

/-- What a round comes to: the merge is over, or goes on in some manner. -/
abbrev Round (α : Type) := Merging α × Option Manner

/-- One entry is taken. -/
def takeOne (d : Direction α ε) (m : Merging α) (fromLeft fromRight : Nat) : Except ε (Round α) := do
  let left ← match m.left[m.fromLeft]?, m.right[m.fromRight]? with
    | some l, some r => d.leftFirst l r
    | _, _ => pure true
  let n := if left then m.takeLeft 1 else m.takeRight 1
  let fromLeft := if left then fromLeft + 1 else 0
  let fromRight := if left then 0 else fromRight + 1
  if n.isOver d.backward then return (n, none)
  else if m.many ≤ max fromLeft fromRight then return ({ n with many := n.many + 1 }, some .leaping)
  else return (n, some (.single fromLeft fromRight))

/-- Entries are taken by leaps, first from the left run and then from the right one, with one of the other run
behind them each time. -/
def takeMany (d : Direction α ε) (m : Merging α) : Except ε (Round α) := do
  let m := if 1 < m.many then { m with many := m.many - 1 } else m
  let lefts ← d.leadOfLeft m
  let m := m.takeLeft lefts
  if m.isOver d.backward then return (m, none)
  let m := m.takeRight 1
  if m.isOver d.backward then return (m, none)
  let rights ← d.leadOfRight m
  let m := m.takeRight rights
  if m.isOver d.backward then return (m, none)
  let m := m.takeLeft 1
  if m.isOver d.backward then return (m, none)
  if leapGain ≤ max lefts rights then return (m, some .leaping)
  else return ({ m with many := m.many + 1 }, some (.single 0 0))

/-- Rounds until the merge is over, `rounds` of them at most. -/
def finish (d : Direction α ε) : (rounds : Nat) → Manner → Merging α → Except ε (Merging α)
  | 0, _, m => .ok m
  | rounds + 1, manner, m => do
    let (m, next) ← match manner with
      | .single fromLeft fromRight => d.takeOne m fromLeft fromRight
      | .leaping => d.takeMany m
    match next with
    | none => return m
    | some manner => d.finish rounds manner m

/-- Merges two runs in the order of the direction, the first entry being known to come from the run that is not
set aside. Every round takes an entry. -/
def merge (d : Direction α ε) (left right : Array α) (many : Nat) : Except ε (Array α × Nat) := do
  let m : Merging α := ⟨left, right, 0, 0, #[], many⟩
  let m := if d.backward then m.takeLeft 1 else m.takeRight 1
  let m ← if m.isOver d.backward then pure m
    else d.finish (left.size + right.size) (.single 0 0) m
  return (m.result d.backward, m.many)

end Direction

/-- Merges two runs, the shorter of which is set aside. -/
def mergeShorter (before : Before α ε) (left right : Array α) (many : Nat) :
    Except ε (Array α × Nat) :=
  if left.size ≤ right.size then Direction.merge ⟨before, false⟩ left right many
  else do
    let (found, many) ← Direction.merge ⟨before, true⟩ left.reverse right.reverse many
    return (found.reverse, many)

/-- Merges two runs. What stands in front of all of the right run, or behind all of the left one, stays. -/
def mergeRuns (before : Before α ε) (left right : Array α) (many : Nat) : Except ε (Array α × Nat) :=
  match left.back?, right[0]? with
  | some l, some r => do
    let kept ← countByLeaps (testAt left (notBefore before r)) false left.size
    if kept = left.size then return (left ++ right, many)
    let behind ← countByLeaps (testAt right.reverse (notBefore before · l)) true right.size
    let moved := right.size - behind
    if moved = 0 then return (left ++ right, many)
    let (between, many) ←
      mergeShorter before (left.extract kept left.size) (right.extract 0 moved) many
    return (left.extract 0 kept ++ between ++ right.extract moved right.size, many)
  | _, _ => .ok (left ++ right, many)

end DegreeGraph.Fallible
