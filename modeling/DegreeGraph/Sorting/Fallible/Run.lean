import DegreeGraph.Sorting.Fallible.Search

/-!
# Runs

A run is a piece of a list that is in order. The entries at the front of a list as far as they are in ascending
order, or in strictly descending order, are a run as they are, or reversed. A run that is too short takes further
entries, each put to its place by halving, behind those that it is level with.
-/

namespace DegreeGraph.Fallible

variable {α ε : Type}

/-- The entries at the front as far as none precedes the one in front of it, and the rest; `last` stands in
front of all. -/
def ascendingRun (before : Before α ε) (last : α) : List α → Except ε (List α × List α)
  | [] => .ok ([], [])
  | x :: rest => do
    if ← before x last then return ([], x :: rest)
    let (run, others) ← ascendingRun before x rest
    return (x :: run, others)

/-- The entries at the front as far as each precedes the one in front of it, and the rest; `last` stands in
front of all. -/
def descendingRun (before : Before α ε) (last : α) : List α → Except ε (List α × List α)
  | [] => .ok ([], [])
  | x :: rest => do
    if ← before x last then
      let (run, others) ← descendingRun before x rest
      return (x :: run, others)
    return ([], x :: rest)

/-- The entries at the front that are put in order as a whole, and the rest. -/
def frontRun (before : Before α ε) : List α → Except ε (List α × List α)
  | [] => .ok ([], [])
  | [x] => .ok ([x], [])
  | x :: y :: rest => do
    if ← before y x then
      let (run, others) ← descendingRun before y rest
      return ((x :: y :: run).reverse, others)
    let (run, others) ← ascendingRun before y rest
    return (x :: y :: run, others)

/-- An entry does not precede another. -/
def notBefore (before : Before α ε) (x y : α) : Except ε Bool := (before x y).map (!·)

/-- Entries put to their places in a run, one after the other. -/
def insertAll (before : Before α ε) (run : Array α) : List α → Except ε (Array α)
  | [] => .ok run
  | x :: rest => do
    let place ← countWithin (testAt run (notBefore before x)) false 0 run.size
    insertAll before (run.insertIdxIfInBounds place x) rest

/-- The run at the front, with as many entries as a run should have at least if there are so many, and the
rest. -/
def nextRun (before : Before α ε) (least : Nat) (xs : List α) : Except ε (Array α × List α) := do
  let (run, others) ← frontRun before xs
  let missing := least - run.length
  return (← insertAll before run.toArray (others.take missing), others.drop missing)

end DegreeGraph.Fallible
