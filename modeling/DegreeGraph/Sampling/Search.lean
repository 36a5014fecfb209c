import DegreeGraph.Sampling.Pivot
import DegreeGraph.Sampling.Source

/-!
# The search for a partner

A pivot draws its partner from the pool of all other nodes, each of which is tried at most once. Whether
a partner serves depends only on the demands that are left and the edges that are there, and neither
changes during a search. So the partner that is taken is one that serves, and each of those is equally
likely to come first.

A partner is refused if the edge is there, if it has no demand left and such partners are skipped, or
if the feasibility test refuses the demands that the edge would leave. The search ends as well when the
budget of draws is used up.

`length_swapRemove` is why a search ends: each draw shortens the pool.
-/

namespace DegreeGraph

universe u

variable {σ : Type u}

/-- An edge between two nodes, the smaller one first. -/
abbrev Edge := Nat × Nat

/-- The edge between two nodes. -/
def edgeOf (a b : Nat) : Edge := if a < b then (a, b) else (b, a)

/-- What the sampler can be told. -/
structure Settings where
  /-- How many draws one search may make. -/
  budget : Option Int := some 100000
  /-- How many runs may be abandoned. -/
  restarts : Int := 3
  /-- The number of runs that reports name as the most that may be abandoned. -/
  shownRestarts : Int := restarts
  /-- Refuse partners without demand before the feasibility test sees them. -/
  skipSpent : Bool := true
deriving DecidableEq, Repr

/-- The budget is used up by a number of draws. -/
def Settings.isUsedUp (settings : Settings) (draws : Nat) : Bool :=
  settings.budget.any fun b ↦ b ≤ (draws : Int)

/-- Where a run stands: the demand that every node has left, and the edges so far. -/
structure Progress where
  residual : List Int
  edges : List Edge
deriving DecidableEq, Repr

namespace Progress

/-- Nothing is placed yet. -/
def start (degrees : List Int) : Progress := ⟨degrees, []⟩

/-- The demands that an edge between two nodes would leave. -/
def lowered (p : Progress) (a b : Nat) : List Int :=
  (p.residual.modify a (· - 1)).modify b (· - 1)

/-- The edge between two nodes is placed. -/
def commit (p : Progress) (a b : Nat) : Progress := ⟨p.lowered a b, p.edges ++ [edgeOf a b]⟩

end Progress

/-- What becomes of a partner that was drawn. -/
inductive Verdict where
  /-- The edge is already there. -/
  | adjacent
  /-- The partner has no demand left. -/
  | spent
  /-- The demands left over would not pass the feasibility test. -/
  | infeasible
  /-- The partner is taken. -/
  | accepted
deriving DecidableEq, Repr

/-- The feasibility test was asked. -/
def Verdict.isChecked : Verdict → Bool
  | infeasible | accepted => true
  | adjacent | spent => false

/-- The verdict on a partner of a pivot. -/
def judge (feasible : List Int → Bool) (skipSpent : Bool) (p : Progress) (pivot partner : Nat) :
    Verdict :=
  if p.edges.contains (edgeOf pivot partner) then .adjacent
  else if skipSpent && p.residual.getD partner 0 == 0 then .spent
  else if feasible (p.lowered pivot partner) then .accepted
  else .infeasible

/-- A pool without the entry at a place; the last entry takes that place. -/
def swapRemove {α : Type u} (pool : List α) (k : Nat) : List α :=
  match pool.getLast? with
  | none => []
  | some last => (pool.set k last).dropLast

theorem length_swapRemove {α : Type u} (pool : List α) (k : Nat) :
    (swapRemove pool k).length = pool.length - 1 := by
  cases pool with
  | nil => rfl
  | cons x xs => simp [swapRemove, List.getLast?_cons]

/-- One draw of a search. -/
structure Trial where
  /-- The size of the pool that was drawn from. -/
  bound : Nat
  /-- The partner that was drawn. -/
  partner : Nat
  /-- What became of it. -/
  verdict : Verdict
deriving DecidableEq, Repr

/-- A search that has ended, and the state of the source after it. -/
structure Search (σ : Type u) where
  /-- The draws, in order. -/
  trials : List Trial
  /-- The partners that were not drawn. -/
  untried : List Nat
  /-- The partner that was taken. -/
  partner : Option Nat
  /-- The state of the source afterwards. -/
  state : σ

/-- Searches a pool after a number of draws. -/
def searchPool (source : Source σ) (settings : Settings) (verdictOn : Nat → Verdict) (draws : Nat)
    (pool : List Nat) (state : σ) : Search σ :=
  match pool with
  | [] => ⟨[], [], none, state⟩
  | first :: others =>
    if settings.isUsedUp draws then ⟨[], first :: others, none, state⟩
    else
      let (k, next) := source.draw state others.length
      let partner := (first :: others)[k]
      let rest := swapRemove (first :: others) k
      let trial : Trial := ⟨others.length + 1, partner, verdictOn partner⟩
      if trial.verdict = .accepted then ⟨[trial], rest, some partner, next⟩
      else
        let later := searchPool source settings verdictOn (draws + 1) rest next
        { later with trials := trial :: later.trials }
termination_by pool.length
decreasing_by simp [length_swapRemove]

/-- The partners that a pivot may draw among a number of nodes. -/
def partnersOf (count pivot : Nat) : List Nat := (List.range count).filter (· != pivot)

/-- The search for a partner of a pivot. -/
def search (feasible : List Int → Bool) (settings : Settings) (source : Source σ) (p : Progress)
    (pivot : Nat) (state : σ) : Search σ :=
  searchPool source settings (judge feasible settings.skipSpent p pivot) 0
    (partnersOf p.residual.length pivot) state

end DegreeGraph
