import DegreeGraph.Sampling.Search
import DegreeGraph.Total

/-!
# Runs

A run starts with all demands and no edges. As long as a demand is positive, the pivot of the moment
searches for a partner; an accepted partner gets an edge, and a search without one ends the run. A run
is recorded as its turns, from which its edges and its statistics are read off.

## Why a run ends

The pivot has a positive demand, which its edge lowers, and no edge raises a demand. So the sum of the
positive demands falls with every turn that places an edge, whatever the feasibility test is.
-/

namespace DegreeGraph

universe u

variable {σ : Type u}

/-! ## The measure -/

/-- The sum of the positive demands. -/
def openDemand (residual : List Int) : Nat := total (residual.map Int.toNat)

theorem openDemand_modify_le (residual : List Int) (i : Nat) :
    openDemand (residual.modify i (· - 1)) ≤ openDemand residual := by
  induction residual generalizing i with
  | nil => simp [openDemand]
  | cons d ds ih =>
    cases i with
    | zero => simp [openDemand]
    | succ i =>
      have := ih i
      simp only [openDemand, List.modify_succ_cons, List.map_cons, total_cons] at *
      omega

theorem openDemand_modify_lt {residual : List Int} {i : Nat} {d : Int}
    (h : residual[i]? = some d) (pos : 0 < d) :
    openDemand (residual.modify i (· - 1)) < openDemand residual := by
  induction residual generalizing i with
  | nil => simp at h
  | cons e es ih =>
    cases i with
    | zero =>
      simp only [List.getElem?_cons_zero, Option.some.injEq] at h
      subst h
      simp [openDemand]; omega
    | succ i =>
      have := ih (i := i) (by simpa using h)
      simp only [openDemand, List.modify_succ_cons, List.map_cons, total_cons] at *
      omega

theorem leastPositive_eq_some {residual : List Int} {i : Nat} {d : Int}
    (h : leastPositive residual = some (i, d)) : residual[i]? = some d ∧ 0 < d := by
  induction residual generalizing i d with
  | nil => simp [leastPositive] at h
  | cons e es ih =>
    rw [leastPositive] at h
    split at h
    · split at h
      · rename_i pos
        simp only [Option.some.injEq, Prod.mk.injEq] at h
        obtain ⟨rfl, rfl⟩ := h
        exact ⟨rfl, pos⟩
      · simp at h
    · rename_i j least hrest
      split at h
      · rename_i pos
        simp only [Option.some.injEq, Prod.mk.injEq] at h
        obtain ⟨rfl, rfl⟩ := h
        exact ⟨rfl, pos.1⟩
      · simp only [Option.some.injEq, Prod.mk.injEq] at h
        obtain ⟨rfl, rfl⟩ := h
        simpa using ih hrest

theorem openDemand_commit_lt {p : Progress} {pivot : Nat} {d : Int}
    (h : leastPositive p.residual = some (pivot, d)) (partner : Nat) :
    openDemand (p.commit pivot partner).residual < openDemand p.residual := by
  obtain ⟨hget, pos⟩ := leastPositive_eq_some h
  exact Nat.lt_of_le_of_lt (openDemand_modify_le _ _) (openDemand_modify_lt hget pos)

/-! ## Turns -/

/-- One turn of a pivot. -/
structure Turn where
  pivot : Nat
  /-- The demand of the pivot when the turn began. -/
  demand : Int
  /-- The draws, in order. -/
  trials : List Trial
  /-- The partners that were not drawn. -/
  untried : List Nat
  /-- The partner that was taken. -/
  partner : Option Nat
deriving DecidableEq, Repr

namespace Turn

/-- The edge that a turn placed. -/
def edge? (t : Turn) : Option Edge := t.partner.map (edgeOf t.pivot)

/-- The number of draws of a turn. -/
def draws (t : Turn) : Nat := t.trials.length

/-- How often a turn asked the feasibility test. -/
def checks (t : Turn) : Nat := t.trials.countP fun trial ↦ trial.verdict.isChecked

end Turn

/-- A run, and the state of the source after it. -/
structure Run (σ : Type u) where
  turns : List Turn
  state : σ

namespace Run

/-- The edges of a run, in the order in which they were placed. -/
def edges (r : Run σ) : List Edge := r.turns.filterMap Turn.edge?

/-- The turn at which a run gave up. -/
def givenUp? (r : Run σ) : Option Turn := r.turns.find? fun t ↦ t.partner.isNone

/-- The number of draws of a run. -/
def draws (r : Run σ) : Nat := total (r.turns.map Turn.draws)

/-- How often a run asked the feasibility test. -/
def checks (r : Run σ) : Nat := total (r.turns.map Turn.checks)

/-- The bounds of the draws of a run, in order. -/
def bounds (r : Run σ) : List Nat := r.turns.flatMap fun t ↦ t.trials.map Trial.bound

end Run

/-- Goes on from where a run stands until all demands are met or a search finds no partner. -/
def runFrom (feasible : List Int → Bool) (settings : Settings) (source : Source σ) (p : Progress)
    (state : σ) : Run σ :=
  match _h : leastPositive p.residual with
  | none => ⟨[], state⟩
  | some (pivot, demand) =>
    let found := search feasible settings source p pivot state
    let turn : Turn := ⟨pivot, demand, found.trials, found.untried, found.partner⟩
    match found.partner with
    | none => ⟨[turn], found.state⟩
    | some partner =>
      let later := runFrom feasible settings source (p.commit pivot partner) found.state
      { later with turns := turn :: later.turns }
termination_by openDemand p.residual
decreasing_by exact openDemand_commit_lt ‹_› partner

/-- A run from the start. -/
def run (feasible : List Int → Bool) (settings : Settings) (source : Source σ)
    (degrees : List Int) (state : σ) : Run σ :=
  runFrom feasible settings source (.start degrees) state

/-! ## Restarts -/

/-- The runs that were abandoned and the last run. -/
structure Attempt (σ : Type u) where
  abandoned : List (Run σ)
  last : Run σ

namespace Attempt

/-- All runs, in order. -/
def runs (a : Attempt σ) : List (Run σ) := a.abandoned ++ [a.last]

/-- The number of draws of all runs. -/
def draws (a : Attempt σ) : Nat := total (a.runs.map Run.draws)

/-- How often all runs asked the feasibility test. -/
def checks (a : Attempt σ) : Nat := total (a.runs.map Run.checks)

/-- The bounds of all draws, in order. -/
def bounds (a : Attempt σ) : List Nat := a.runs.flatMap Run.bounds

end Attempt

/-- Runs until one meets all demands, at most `restarts` of them being abandoned for another; every run
goes on with the source where the one before left it. -/
def attempt (feasible : List Int → Bool) (settings : Settings) (source : Source σ)
    (degrees : List Int) : (restarts : Nat) → σ → Attempt σ
  | 0, state => ⟨[], run feasible settings source degrees state⟩
  | restarts + 1, state =>
    let first := run feasible settings source degrees state
    if first.givenUp?.isSome then
      let later := attempt feasible settings source degrees restarts first.state
      { later with abandoned := first :: later.abandoned }
    else ⟨[], first⟩

end DegreeGraph
