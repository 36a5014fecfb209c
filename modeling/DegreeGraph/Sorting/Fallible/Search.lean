/-!
# Searching by tests that may fail

Entries that pass a test stand in front of those that do not. How many pass is found by halving, or, where few
of them are expected to pass, by leaps of growing length first. A test may fail, and then the search fails with
it; which places are tested, and in which order, is part of what is settled here.
-/

namespace DegreeGraph.Fallible

variable {α ε : Type}

/-- A comparison: the first entry precedes the second. -/
abbrev Before (α ε : Type) := α → α → Except ε Bool

/-- The number of entries that pass a test, which lies between two numbers. An interval of even length is halved
at its upper middle, or at its lower one. -/
def countWithin (passes : Nat → Except ε Bool) (lower : Bool) (low high : Nat) : Except ε Nat :=
  if _h : low < high then do
    let middle := low + (high - low - (if lower then 1 else 0)) / 2
    if ← passes middle then countWithin passes lower (middle + 1) high
    else countWithin passes lower low middle
  else .ok low
termination_by high - low
decreasing_by all_goals split <;> omega

/-- Leaps from a place that passes, `ofs` ahead of the front, as far as the test goes on to pass; the answer is
the last place that passed and one that need not. -/
def leap (passes : Nat → Except ε Bool) (size last ofs : Nat) : Except ε (Nat × Nat) :=
  if _h : ofs < size then do
    if ← passes ofs then leap passes size ofs (2 * ofs + 1) else return (last, ofs)
  else .ok (last, size)
termination_by size - ofs

/-- The number of entries of so many that pass a test, found by leaps from the front. -/
def countByLeaps (passes : Nat → Except ε Bool) (lower : Bool) (size : Nat) : Except ε Nat := do
  if ← passes 0 then
    let (last, ofs) ← leap passes size 0 1
    countWithin passes lower (last + 1) ofs
  else return 0

/-- A test of the entry at a place; where there is no entry it does not pass. -/
def testAt (xs : Array α) (test : α → Except ε Bool) (place : Nat) : Except ε Bool :=
  match xs[place]? with
  | some x => test x
  | none => .ok false

end DegreeGraph.Fallible
