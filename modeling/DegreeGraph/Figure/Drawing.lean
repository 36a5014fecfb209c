import DegreeGraph.Figure.Forces
import DegreeGraph.Number.Power

/-!
# Drawings of graphs

A drawing shows the nodes of a network with sizes by their degrees. Up to fifty numbered nodes, every node is
labelled. Where the nodes lie is left to the picture. Whether they can be placed at all depends on the libraries at
hand, so it is a parameter.
-/

namespace DegreeGraph

/-- What a drawing shows. -/
structure Drawing where
  network : Network
  /-- The nodes are labelled. -/
  labelled : Bool

namespace Drawing

/-- The title. -/
def title (d : Drawing) : String :=
  "Realization — " ++ toString d.network.nodes.length ++ " nodes, "
    ++ toString d.network.links.length ++ " edges"

/-- The width and the height in inches. -/
def side : Float := 7.0

/-- The size of a node of some degree. -/
def nodeSize (degree : Nat) : Nat := 80 + 40 * degree

/-- The sizes of the nodes, in their order. -/
def nodeSizes (d : Drawing) : List Nat :=
  d.network.nodes.map fun n ↦ nodeSize (d.network.degree n)

/-- The labels of the nodes, in their order. -/
def labels (d : Drawing) : List String :=
  if d.labelled then d.network.nodes.map Datum.display else []

/-- The seed from which the places of the nodes are drawn if none is given. -/
def defaultSeed : Datum := .int 42

/-- A seed must be null or an integer of 32 bits. -/
def checkSeed (seed : Datum) : Except Fault Unit :=
  match seed, seed.toInt? with
  | .null, _ => .ok ()
  | _, some z => if 0 ≤ z && z < Number.twoTo 32 then .ok () else .error .layoutSeedOutOfRange
  | _, none => .error (.notLayoutSeed seed)

/-- The nodes of a network can be placed from a seed by the forces between any two of them. -/
def checkForces (network : Network) (seed : Option Nat) : Except Fault Unit :=
  if 1 < network.nodes.length then do
    network.checkWeights
    network.checkLoops seed
  else .ok ()

/-- The number of nodes from which on they are placed by a library for sparse networks. -/
def sparseFrom : Nat := 500

/-- What can be placed where there is no library for sparse networks. -/
def placingAlone (network : Network) (seed : Datum) : Except Fault Unit := do
  checkSeed seed
  if sparseFrom ≤ network.nodes.length then throw (.noLibrary "scipy")
  checkForces network (seed.toInt?.map Int.toNat)

/-- The drawing of edges over a number of nodes, whose places are drawn from a seed; `placing` tells what can be
placed. -/
def ofEdges (edges count seed : Datum) (placing : Network → Datum → Except Fault Unit := placingAlone) :
    Except Fault Drawing := do
  let network ← Network.ofEdges edges count
  placing network seed
  return ⟨network, (count.toInt?.getD 0) ≤ 50⟩

end Drawing

end DegreeGraph
