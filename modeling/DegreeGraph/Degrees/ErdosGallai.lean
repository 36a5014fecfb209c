import DegreeGraph.Sorting
import DegreeGraph.Total

/-!
# The Erdős–Gallai test

A list of integers is the degree sequence of a simple graph if and only if no entry is negative, the
sum is even, and for every `k` the `k` largest entries sum to at most

```text
k (k - 1) + ∑ min k d   over the other entries d.
```

## The scan

The entries are walked in descending order, the sum of those passed being kept. The right-hand side
needs no inner loop: the same entries are kept in ascending order as well, and as `k` grows the ones
that fall below `k` are dropped from its front and summed, once each. So the walk is linear.

For two entries or more the inequality for `k` equal to their number follows from the one for `k = 1`,
and the scan stops before it. One entry has no inequality to scan and must be zero.
-/

namespace DegreeGraph

/-- No entry is negative and the sum is even. -/
def hasParityAndSign (degrees : List Int) : Bool :=
  degrees.all (0 ≤ ·) && total degrees % 2 == 0

/-- The entries from the largest to the smallest. -/
def descending (degrees : List Int) : List Int := sortedBy (fun a b ↦ b ≤ a) degrees

namespace ErdosGallai

/-- The entries parted at a bound: those that reach it, in ascending order and counted, and the sum of
those below. -/
structure Parted where
  reaching : List Int
  count : Nat
  below : Int
deriving Repr

/-- Drops the entries below a bound from the front of an ascending list. -/
def dropBelow (bound : Int) : List Int → (count : Nat) → (below : Int) → Parted
  | [], count, below => ⟨[], count, below⟩
  | d :: rest, count, below =>
    if d < bound then dropBelow bound rest (count - 1) (below + d) else ⟨d :: rest, count, below⟩

/-- Parts the entries at a greater bound. -/
def Parted.raise (bound : Int) (p : Parted) : Parted := dropBelow bound p.reaching p.count p.below

/-- The most that the `k` largest entries may sum to, given their sum and the sum of all. -/
def headBound (k : Nat) (total headSum : Int) (p : Parted) : Int :=
  (k : Int) * (k - 1)
    + if k < p.count then (k : Int) * (p.count - k : Nat) + p.below else total - headSum

/-- The inequalities for `k + 1` and beyond hold, the last one excepted; `headSum` is the sum of the
`k` largest entries. -/
def scan (total : Int) (k : Nat) (headSum : Int) (p : Parted) : List Int → Bool
  | [] => true
  | [_] => true
  | d :: e :: rest =>
    let p := p.raise (k + 1)
    let headSum := headSum + d
    decide (headSum ≤ headBound (k + 1) total headSum p) && scan total (k + 1) headSum p (e :: rest)

/-- All the inequalities hold. -/
def inequalities (degrees : List Int) : Bool :=
  let d := descending degrees
  scan (total degrees) 0 0 ⟨d.reverse, d.length, 0⟩ d

/-- Some simple graph has these degrees. -/
def passes (degrees : List Int) : Bool :=
  hasParityAndSign degrees
    && match degrees with
      | [d] => d == 0
      | _ => inequalities degrees

end ErdosGallai

end DegreeGraph
