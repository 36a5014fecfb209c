import DegreeGraph.Number.Power
import DegreeGraph.PowerLaw.Variates
import DegreeGraph.Sampling.Twister

/-!
# Pareto variates from the twister

A variate is made from a uniform number by inversion: from `u` below one comes `(1 - u) ^ (-1 / shape) - 1`.
A uniform number takes 53 bits, the top 27 of one word and the top 26 of the next.
-/

namespace DegreeGraph

namespace Twister

/-- A uniform number from zero up to one, and the generator afterwards. -/
def uniform (t : Twister) : Float × Twister :=
  let (a, t) := t.word
  let (b, t) := t.word
  (Float.ofNat ((a >>> 5).toNat * Number.twoTo 26 + (b >>> 6).toNat) / Float.ofNat (Number.twoTo 53), t)

/-- A Pareto variate of some shape, and the generator afterwards. -/
def pareto (t : Twister) (shape : Float) : Float × Twister :=
  let (u, t) := t.uniform
  (Float.pow (1.0 - u) (-1.0 / shape) - 1.0, t)

/-- As many Pareto variates as asked for, and the generator afterwards. -/
def paretoBatch (shape : Float) (t : Twister) :
    (size : Nat) → { xs : List Float // xs.length = size } × Twister
  | 0 => (⟨[], rfl⟩, t)
  | size + 1 =>
    let (x, t) := t.pareto shape
    let (xs, t) := paretoBatch shape t size
    (⟨x :: xs.val, by simp [xs.property]⟩, t)

/-- The generator as a source of variates. -/
def variates : Variates Twister where
  batch t shape size := paretoBatch shape t size
  place t last := source.draw t last

end Twister

end DegreeGraph
