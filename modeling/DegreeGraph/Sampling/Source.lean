/-!
# Sources of draws

A source answers, from a state, a number up to a bound and its next state. Nothing else about it is
known to the sampler: what is proved of every source holds of every stream of draws. The bound is
given by the greatest number allowed, so that there always is an answer.

`scriptSource` answers from a list that is repeated for ever.
-/

namespace DegreeGraph

universe u

/-- A source of draws with states in `σ`. -/
structure Source (σ : Type u) where
  /-- A number that is at most `last`, and the state afterwards. -/
  draw : (state : σ) → (last : Nat) → Fin (last + 1) × σ

/-- An integer brought below `last + 1`. -/
def wrap (last : Nat) (z : Int) : Fin (last + 1) :=
  ⟨(z % ((last + 1 : Nat) : Int)).toNat, by
    have h : (0 : Int) < ((last + 1 : Nat) : Int) := by omega
    have := Int.emod_lt_of_pos z h
    have := Int.emod_nonneg z (Int.ne_of_gt h)
    omega⟩

/-- The source that answers a list of integers over and over, each brought below its bound; its state
is the number of draws so far. -/
def scriptSource (script : List Int) : Source Nat where
  draw i last := (wrap last (script.getD (i % script.length) 0), i + 1)

end DegreeGraph
