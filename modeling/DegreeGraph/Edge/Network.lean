import DegreeGraph.Datum.Key
import DegreeGraph.Edge.Ends
import DegreeGraph.Total

/-!
# Simple graphs of edges

A network has nodes in the order in which they arrived and at most one link between two of them. The
numbered nodes come first; an end that is not there yet becomes a node, the first end before the second.
A link between nodes that are linked already changes nothing but its weight, and a loop is a link.

Nodes are told apart by sameness of data, so a truth value and a number may be one node; it is shown as
it first arrived.
-/

namespace DegreeGraph

/-- A link of a network, as its ends were first linked. -/
structure Network.Link where
  ends : Ends
  /-- The weight that it was given last. -/
  weight : Option Datum
deriving Inhabited

/-- A simple graph with loops. -/
structure Network where
  /-- The nodes in the order of arrival. -/
  nodes : List Datum
  /-- One link for every two nodes that are linked. -/
  links : List Network.Link
deriving Inhabited

namespace Network

/-- The place of a node among the nodes. -/
def placeOf? (g : Network) (d : Datum) : Option Nat := g.nodes.findIdx? d.same

/-- A datum becomes a node unless it is one. -/
def addNode (g : Network) (d : Datum) : Except Fault Network :=
  match d with
  | .list _ => .error (.notKey .list)
  | .record _ => .error (.notKey .record)
  | _ =>
    if (g.placeOf? d).isSome then .ok g
    else match d with
      | .null => .error .notNode
      | _ => .ok { g with nodes := g.nodes ++ [d] }

/-- A link joins two nodes, in either order. -/
def Link.joins (l : Link) (a b : Datum) : Bool :=
  (l.ends.1.same a && l.ends.2.same b) || (l.ends.1.same b && l.ends.2.same a)

/-- A link joins a node with itself. -/
def Link.isLoop (l : Link) : Bool := l.ends.1.same l.ends.2

/-- A link with a weight, if one is given. -/
def Link.weighted (l : Link) (weight : Option Datum) : Link := { l with weight := weight.or l.weight }

/-- Links two data, which become nodes, with a weight. -/
def link (g : Network) (a b : Datum) (weight : Option Datum) : Except Fault Network := do
  let g ← (← g.addNode a).addNode b
  return { g with links :=
    if g.links.any (·.joins a b) then g.links.map fun l ↦ if l.joins a b then l.weighted weight else l
    else g.links ++ [⟨(a, b), weight⟩] }

/-! ## Attributes -/

/-- The name of the attribute that is the weight of a link. -/
def weightName : String := "weight"

/-- The last weight among pairs, every one of which must be one. -/
def weightInPairs (position : Nat) (weight : Option Datum) : List Datum → Except Fault (Option Datum)
  | [] => .ok weight
  | item :: rest =>
    match item.elements? with
    | none => .error (.attributeNotSequence position)
    | some [name, value] => do
      let _ ← name.key
      weightInPairs (position + 1) (if name.same (.text weightName) then some value else weight) rest
    | some parts => .error (.attributeNotPair position parts.length)

/-- The weight in attributes, which are a record or pairs. -/
def weightIn (attributes : Datum) : Except Fault (Option Datum) :=
  match attributes, attributes.elements? with
  | .record _, _ => .ok (attributes.field? weightName)
  | d, none => .error (.notSequence d.kind)
  | _, some items => weightInPairs 0 none items

/-! ## Edges -/

/-- Links the ends of an edge. A third part holds attributes, of which the weight is kept. -/
def addEdge (g : Network) (edge : Datum) : Except Fault Network :=
  match edge.elements? with
  | none => .error (.notSized edge.kind)
  | some [a, b] => g.link a b none
  | some [a, b, attributes] => do
    let g ← (← g.addNode a).addNode b
    g.link a b (← weightIn attributes)
  | some parts =>
    .error (.notEdge (match edge with
      | .list [d] => "(" ++ d.written ++ ",)"
      | .list _ => "(" ++ Datum.writtenItems parts ++ ")"
      | d => d.display))

/-- Links the ends of edges one after the other. -/
def addEdges (g : Network) : List Datum → Except Fault Network
  | [] => .ok g
  | edge :: rest => do (← g.addEdge edge).addEdges rest

/-- Numbered nodes and no links. -/
def numbered (count : Nat) : Network := ⟨(List.range count).map fun (i : Nat) ↦ .int i, []⟩

/-- The network of edges over a number of nodes. -/
def ofEdges (edges count : Datum) : Except Fault Network :=
  match count.toInt? with
  | none => .error (.notInteger count.kind)
  | some n => do (numbered n.toNat).addEdges (← partsOf edges)

/-- The number of ends of links at a node. -/
def degree (g : Network) (d : Datum) : Nat :=
  total (g.links.map fun l ↦ (if l.ends.1.same d then 1 else 0) + (if l.ends.2.same d then 1 else 0))

/-- The ends of a link as they are listed: the one that arrived first stands first and is shown as the
node, the other as it was linked. -/
def listed (g : Network) (l : Ends) : Ends :=
  match g.placeOf? l.1, g.placeOf? l.2 with
  | some i, some j =>
    if i ≤ j then (g.nodes.getD i l.1, l.2) else (g.nodes.getD j l.2, l.1)
  | _, _ => l

/-- The links as they are listed, by the places of their first ends and then in the order in which they were
made. -/
def listing (g : Network) : List Link :=
  let placed := g.links.map fun l ↦
    let ends := g.listed l.ends
    ((g.placeOf? ends.1).getD 0, { l with ends := ends })
  (sortedBy (fun a b ↦ decide (a.1 ≤ b.1)) placed).map Prod.snd

/-- Ends with the lesser first; ends that are level stay as they are. -/
def inOrder (ends : Ends) : Except Fault Ends := do
  return if ← ends.2.related .less ends.1 then (ends.2, ends.1) else ends

/-- The ends of links, each with the lesser first. -/
def allInOrder : List Ends → Except Fault (List Ends)
  | [] => .ok []
  | l :: rest => do
    let ends ← inOrder l
    let later ← allInOrder rest
    return ends :: later

/-- The links, each with the lesser end first, in ascending order. -/
def edges (g : Network) : Except Fault (List Ends) := do
  sortEnds (← allInOrder (g.listing.map Link.ends))

end Network

end DegreeGraph
