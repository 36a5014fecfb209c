import DegreeGraph.Figure.Weights
import DegreeGraph.Sampling.Twister

/-!
# Forces between nodes

The nodes of a drawing start at places in a square that are drawn from a seed, and then move by the forces on them. Any
two nodes push each other away, and a link pulls its ends together, by its weight and the more the further they
are apart.

A force that is not finite leaves no node with a place in the end. Links between two nodes are not drawn then, but a
loop at a node without a place cannot be. A weight that pulls with a finite force at first will always do so,
because the ends of a very heavy link do not move.
-/

namespace DegreeGraph

/-- A number between zero and one of the generator: 27 bits of a word and 26 bits of the next one. -/
def Twister.unit (t : Twister) : Float × Twister :=
  let (high, t) := t.word
  let (low, t) := t.word
  ((Float.ofNat (high >>> 5).toNat * 67108864.0 + Float.ofNat (low >>> 6).toNat) / 9007199254740992.0, t)

namespace Network

/-- Some places that are drawn one after the other. -/
def drawPlaces : (count : Nat) → Twister → List (Float × Float)
  | 0, _ => []
  | count + 1, t =>
    let (x, t) := t.unit
    let (y, t) := t.unit
    (x, y) :: drawPlaces count t

/-- The first places of some nodes. Without a seed they are not known, and one place stands for all of them. -/
def firstPlaces (count : Nat) : (seed : Option Nat) → List (Float × Float)
  | some seed => drawPlaces count ⟨Twister.filled (UInt32.ofNat seed), Twister.size⟩
  | none => List.replicate count (0.0, 0.0)

/-- The weights between any two nodes by their numbers: row by row, with zeros where no link is. -/
def weightTable (g : Network) : Array Float :=
  let n := g.nodes.length
  let put (table : Array Float) (l : Link × Float) : Array Float :=
    match g.placeOf? l.1.ends.1, g.placeOf? l.1.ends.2 with
    | some i, some j => (table.setIfInBounds (i * n + j) l.2).setIfInBounds (j * n + i) l.2
    | _, _ => table
  (g.listing.zip g.realWeights).foldl put (Array.replicate (n * n) 0.0)

/-- The least distance of two nodes that counts. -/
def leastDistance : Float := 0.01

/-- The strength of the force between two nodes at some distance where links have some length at rest. -/
def strength (rest distance weight : Float) : Float :=
  rest * rest / (distance * distance) - weight * distance / rest

/-- The force on a node by others, whose weights and places are told. -/
def force (rest : Float) (place : Float × Float) (others : List (Float × Float × Float)) : Float × Float :=
  others.foldl (fun sum other ↦
    let (weight, x, y) := other
    let (dx, dy) := (place.1 - x, place.2 - y)
    let distance := Float.sqrt (dx * dx + dy * dy)
    let s := strength rest (if distance < leastDistance then leastDistance else distance) weight
    (sum.1 + dx * s, sum.2 + dy * s)) (0.0, 0.0)

/-- The forces on the nodes at their first places are finite. -/
def hasFiniteForces (g : Network) (seed : Option Nat) : Bool :=
  let n := g.nodes.length
  let places := firstPlaces n seed
  let table := g.weightTable
  let rest := Float.sqrt (1.0 / Float.ofNat n)
  places.zipIdx.all fun (place, i) ↦
    let weights := (List.range n).map fun j ↦ table.getD (i * n + j) 0.0
    let (x, y) := force rest place (weights.zip places)
    x.isFinite && y.isFinite

/-- The loops are at nodes that have a place. -/
def checkLoops (g : Network) (seed : Option Nat) : Except Fault Unit :=
  if g.links.any Link.isLoop && !g.hasFiniteForces seed then .error .lostPlace else .ok ()

end Network

end DegreeGraph
