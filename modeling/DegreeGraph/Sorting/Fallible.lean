import DegreeGraph.Sorting.Fallible.Merge

/-!
# Sorting by comparisons that may fail

Some data have no order, and a sort fails at the first comparison that does. Which one that is depends on
the order of the comparisons, so it is settled here. A list is cut into runs from the front, and runs are merged
with their neighbours.

Which runs are merged first is told by powers. The boundary between two neighbours has a power: the number of
halvings of the whole list after which the middles of the two lie in different parts. When a run has been cut
off, earlier runs are merged whose boundary has a greater power than the newest one; in the end all are merged,
the last two of three unless the third last is shorter than the last.
-/

namespace DegreeGraph.Fallible

variable {α ε : Type}

/-- The bound on the length of lists that are sorted as one run. -/
def runLimit : Nat := 64

/-- The least length of the runs of a list: the first bits of the length of the list, one more if others are
set. -/
def leastRun (size : Nat) : (fuel : Nat) → (odd : Bool) → Nat
  | 0, _ => size
  | fuel + 1, odd =>
    if size < runLimit then size + (if odd then 1 else 0)
    else leastRun (size / 2) fuel (odd || size % 2 == 1)

/-- The number of halvings of a whole after which twice the middle of one run and twice the middle of its
neighbour, counted from the front, lie in different halves. -/
def powerOf (whole : Nat) : (fuel : Nat) → (a b : Nat) → Nat
  | 0, _, _ => 0
  | fuel + 1, a, b =>
    if whole ≤ a then 1 + powerOf whole fuel (2 * (a - whole)) (2 * (b - whole))
    else if whole ≤ b then 1
    else 1 + powerOf whole fuel (2 * a) (2 * b)

/-- A run that waits to be merged: where it starts, and the power of its boundary with the next one. -/
structure Waiting (α : Type) where
  start : Nat
  run : Array α
  power : Nat

/-- The waiting runs, last one first, and how many entries in a row are many for a merge. -/
structure Runs (α : Type) where
  waiting : List (Waiting α)
  many : Nat

/-- Two neighbours as one run. -/
def joined (before : Before α ε) (left right : Waiting α) (many : Nat) :
    Except ε (Waiting α × Nat) := do
  let (run, many) ← mergeRuns before left.run right.run many
  return ({ left with run := run }, many)

/-- Merges the last runs while their boundary has a greater power. -/
def mergeAbove (before : Before α ε) (power many : Nat) :
    (last : Waiting α) → List (Waiting α) → Except ε (Runs α)
  | last, [] => .ok ⟨[{ last with power := power }], many⟩
  | last, left :: rest => do
    if power < left.power then
      let (run, many) ← joined before left last many
      mergeAbove before power many run rest
    else return ⟨{ last with power := power } :: left :: rest, many⟩

/-- The power of the boundary between the last run and one that follows, in a list of some length. -/
def powerAfter (whole : Nat) (last : Waiting α) (size : Nat) : Nat :=
  let a := 2 * last.start + last.run.size
  powerOf whole (whole + 1) a (a + last.run.size + size)

/-- A new run behind the others, of which some are merged before. -/
def push (before : Before α ε) (whole start : Nat) (run : Array α) (runs : Runs α) :
    Except ε (Runs α) := do
  let runs ← match runs.waiting with
    | [] => pure runs
    | last :: rest => mergeAbove before (powerAfter whole last run.size) runs.many last rest
  return { runs with waiting := ⟨start, run, 0⟩ :: runs.waiting }

/-- All entries of the waiting runs in ascending order. -/
def mergeAll (before : Before α ε) : (fuel : Nat) → Runs α → Except ε (List α)
  | 0, _ => .ok []
  | fuel + 1, runs =>
    match runs.waiting with
    | [] => .ok []
    | [only] => .ok only.run.toList
    | last :: left :: [] => do
      let (run, many) ← joined before left last runs.many
      mergeAll before fuel ⟨[run], many⟩
    | last :: left :: lefter :: rest => do
      if lefter.run.size < last.run.size then
        let (run, many) ← joined before lefter left runs.many
        mergeAll before fuel ⟨last :: run :: rest, many⟩
      else
        let (run, many) ← joined before left last runs.many
        mergeAll before fuel ⟨run :: lefter :: rest, many⟩

/-- Cuts a list into runs, from a place in the whole on; every run has an entry. -/
def cut (before : Before α ε) (whole least : Nat) :
    (fuel : Nat) → (start : Nat) → List α → Runs α → Except ε (Runs α)
  | 0, _, _, runs => .ok runs
  | _, _, [], runs => .ok runs
  | fuel + 1, start, xs, runs => do
    let (run, others) ← nextRun before least xs
    let runs ← push before whole start run runs
    cut before whole least fuel (start + run.size) others runs

/-- The entries in ascending order. -/
def sorted (before : Before α ε) (xs : List α) : Except ε (List α) := do
  let whole := xs.length
  let runs ← cut before whole (leastRun whole whole false) whole 0 xs ⟨[], leapGain⟩
  mergeAll before (whole + 1) runs

end DegreeGraph.Fallible
