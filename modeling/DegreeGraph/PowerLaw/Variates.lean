import DegreeGraph.Fault
import DegreeGraph.Sampling.Source

/-!
# Sources of variates

A sample of a power law needs two kinds of draws: batches of real numbers and single places. A source
answers both from a state; nothing else about it is known, so what is proved holds for every outcome. A source
may also be refused, before anything is drawn.

`scriptVariates` answers from two lists that are repeated for ever.
-/

namespace DegreeGraph

universe u

/-- A source of variates with states in `σ`. -/
structure Variates (σ : Type u) where
  /-- As many real numbers as asked for, for a shape, and the state afterwards. -/
  batch : (state : σ) → (shape : Float) → (size : Nat) → { xs : List Float // xs.length = size } × σ
  /-- A number that is at most `last`, and the state afterwards. -/
  place : (state : σ) → (last : Nat) → Fin (last + 1) × σ

/-- A generator takes any integer that is not negative as its seed, and none at all. -/
def checkVariateSeed (seed : Option Int) : Except Fault Unit :=
  if seed.any (· < 0) then .error (.raised "ValueError" "expected non-negative integer") else .ok ()

/-- The first entries of a list that is repeated for ever; zeros for a list without entries. -/
def cycled (xs : List Float) (size : Nat) : { ys : List Float // ys.length = size } :=
  ⟨(List.range size).map fun i ↦ xs.getD (i % xs.length) 0.0, by simp⟩

/-- What a script answers: batches and places. -/
structure VariateScript where
  batches : List (List Float) := [[0.0]]
  places : List Int := [0]
deriving Repr

/-- How many batches and how many places a script has answered. -/
structure ScriptState where
  batches : Nat := 0
  places : Nat := 0
deriving Repr

/-- The source that answers from a script. -/
def scriptVariates (script : VariateScript) : Variates ScriptState where
  batch s _ size :=
    (cycled (script.batches.getD (s.batches % script.batches.length) []) size,
      { s with batches := s.batches + 1 })
  place s last :=
    (wrap last (script.places.getD (s.places % script.places.length) 0),
      { s with places := s.places + 1 })

end DegreeGraph
