import DegreeGraph.Sampling.Realization
import DegreeGraph.Store.Basic

/-!
# Graphs written to a store

The edges of a collection are written to a store in ascending order, all in one transaction: both ends of
an edge are looked up or made, under the text of the node's number as key, and then linked. Written a
second time, the nodes are found again. Nodes without edges are made as well if the layout asks for them. A
number of too many digits has no text, so its node can neither be looked up nor made.

A degree sequence is realized completely before the store is touched.
-/

namespace DegreeGraph

open DegreeGraph.Number

universe u

variable {σ : Type u}

/-- How a graph is laid out in a store. -/
structure Layout where
  /-- The label of the nodes. -/
  label : Datum := .text "Node"
  /-- The property that holds the key of a node; empty for the one of the store. -/
  property : Datum := .text "name"
  /-- The type of the links. -/
  relationship : Datum := .text "relto"
  /-- Nodes without edges are made as well. -/
  isolated : Bool := false

/-- What a store takes from the settings. -/
def Config.layout (c : Config) : Layout :=
  { label := c.nodeLabel
    property := c.keyProperty
    relationship := c.relationship
    isolated := c.isolatedNodes.holds }

namespace Store

/-- The node of a datum is looked up or made, under the text of the datum. -/
def placeNode (layout : Layout) (d : Datum) : StoreM Nat := do
  findOrCreate layout.label (.text (← lift d.shown)) layout.property

/-- The nodes of data are looked up or made. -/
def placeNodes (layout : Layout) : List Datum → StoreM Unit
  | [] => pure ()
  | d :: rest => do
    let _ ← placeNode layout d
    placeNodes layout rest

/-- The nodes of an edge are looked up or made, and linked. -/
def placeEdge (layout : Layout) (ends : Ends) : StoreM Unit := do
  let a ← placeNode layout ends.1
  let b ← placeNode layout ends.2
  createEdge (.int a) (.int b) layout.relationship

/-- Edges are placed one after the other. -/
def placeEdges (layout : Layout) : List Ends → StoreM Unit
  | [] => pure ()
  | ends :: rest => do
    placeEdge layout ends
    placeEdges layout rest

/-- The nodes that a number of nodes asks for besides the ends of edges. -/
def numberedNodes (layout : Layout) (count : Datum) : Except Fault (List Datum) :=
  if !layout.isolated then .ok []
  else match count, count.toInt? with
    | .null, _ => .ok []
    | _, none => .error (.notInteger count.kind)
    | _, some n => .ok ((List.range n.toNat).map fun (i : Nat) ↦ .int i)

/-- Writes nodes and edges. -/
def place (layout : Layout) (count : Datum) (ends : List Ends) : StoreM Unit := do
  placeNodes layout (← lift (numberedNodes layout count))
  placeEdges layout ends

/-- Writes a collection of edges over a number of nodes, which may be missing, and answers how many there
were. -/
def materialize (layout : Layout) (edges : Datum) (count : Datum) : StoreM Nat := do
  let ends ← lift (sortedEnds edges)
  transaction (place layout count ends)
  return ends.length

/-- Realizes a degree sequence by a sampler of data and writes the graph. -/
def generateBy (config : Config) (sampler : Datum → Sampling) (sequence : Datum) :
    StoreM Realization := do
  let degrees ← lift (partsOf sequence)
  let r ← lift (sampler (.list degrees)).answer
  let _ ← materialize config.layout r.edgeData (.int degrees.length)
  return r

/-- Realizes a degree sequence with draws from a state of any source and writes the graph. -/
def generateGraphFrom (registry : Registry) (config : Config) (source : Source σ) (state : σ)
    (sequence : Datum) : StoreM Realization :=
  generateBy config (realizeFrom registry config source state) sequence

/-- Realizes a degree sequence and writes the graph: draws that a caller starts are started before the
sequence is looked at. -/
def generateGraph (registry : Registry) (config : Config) (draws : Draws) (sequence : Datum) :
    StoreM Realization := do
  lift draws.check
  generateBy config (realize registry config draws) sequence

end Store

end DegreeGraph
