import DegreeGraph.Datum.Key
import DegreeGraph.Sorting

/-!
# What a graph store holds

A store holds nodes and links. A node has a handle, which is a number that no other node of the store has,
and attributes: its label, and a key under some property. It is found again by label, property and key, for
which the store keeps an index. Every link is recorded, also between nodes that are linked already and from
a node to itself; the links between two nodes are numbered from zero in the order in which they were made.

Labels, keys and the types of links are data of any kind that can be looked up. A node is shown with those
that it was made with, and the higher end of a link as the first link between the two nodes named it.

## The simple view

`SimpleView.ofContents` keeps the nodes and joins two of them once if they are linked at all; the type of
the latest link stands for all of them.
-/

namespace DegreeGraph

/-- What a node is found by. -/
structure NodeKey where
  label : Key
  property : Key
  key : Key
deriving DecidableEq, Repr

/-- The attributes of a node, by name. -/
abbrev Attributes := List (String × Datum)

/-- What a node is asked for by: its label, the name of the property that holds its key, and the key. -/
structure NodeName where
  label : Datum
  property : Datum
  key : Datum
deriving Inhabited

namespace NodeName

/-- What the node of a name is found by. -/
def nodeKey (n : NodeName) : Except Fault NodeKey := do
  return ⟨← n.label.key, ← n.property.key, ← n.key.key⟩

/-- The attributes of the node of a name under a property. -/
def attributes (n : NodeName) (property : String) : Attributes :=
  [("label", n.label), (property, n.key)]

end NodeName

/-- A node of a store. -/
structure StoredNode where
  handle : Nat
  attributes : Attributes
deriving Inhabited

/-- A link between two nodes of a store, the lower handle first. -/
structure Link where
  low : Nat
  high : Nat
  number : Nat
  type : Datum
  /-- How the higher end is shown. -/
  shown : Datum
deriving Inhabited

/-- The link joins two handles, in either order. -/
def Link.joins (l : Link) (a b : Nat) : Bool := l.low == min a b && l.high == max a b

/-- What a store holds. -/
structure Contents where
  /-- The nodes in the order in which they were made. -/
  nodes : List StoredNode := []
  /-- The links in the order in which they were made. -/
  links : List Link := []
  /-- The handle of every node under what it is found by. -/
  index : List (NodeKey × Nat) := []
  /-- The handle of the next node. -/
  nextHandle : Nat := 0
deriving Inhabited

namespace Contents

/-- The handle of the node of a key. -/
def find? (c : Contents) (k : NodeKey) : Option Nat := c.index.lookup k

/-- A handle belongs to a node. -/
def hasHandle (c : Contents) (h : Nat) : Bool := c.nodes.any (·.handle == h)

/-- The next handle is used up. -/
def skipHandle (c : Contents) : Contents := { c with nextHandle := c.nextHandle + 1 }

/-- A new node with attributes for a key. -/
def addNode (c : Contents) (k : NodeKey) (attributes : Attributes) : Contents :=
  { c with
    nodes := c.nodes ++ [⟨c.nextHandle, attributes⟩]
    index := (k, c.nextHandle) :: c.index
    nextHandle := c.nextHandle + 1 }

/-- The number of links between two handles. -/
def countLinks (c : Contents) (a b : Nat) : Nat := c.links.countP (·.joins a b)

/-- How the higher end of a link between two handles is shown if a new link names it in some way. -/
def shownEnd (c : Contents) (a b : Nat) (named : Datum) : Datum :=
  match c.links.find? (·.joins a b) with
  | some l => l.shown
  | none => named

/-- A new link between two handles; `named` is how it names the higher one. -/
def addLink (c : Contents) (a b : Nat) (type named : Datum) : Contents :=
  { c with
    links := c.links ++ [⟨min a b, max a b, c.countLinks a b, type, c.shownEnd a b named⟩] }

end Contents

/-- One link is not behind another in the order of handles and numbers. -/
def linkAtMost (a b : Link) : Bool :=
  a.low < b.low || (a.low == b.low && (a.high < b.high || (a.high == b.high && a.number ≤ b.number)))

/-- One node is not behind another in the order of handles. -/
def nodeAtMost (a b : StoredNode) : Bool := a.handle ≤ b.handle

namespace Contents

/-- The nodes by their handles. -/
def sortedNodes (c : Contents) : List StoredNode := sortedBy nodeAtMost c.nodes

/-- The links by their handles and numbers. -/
def sortedLinks (c : Contents) : List Link := sortedBy linkAtMost c.links

end Contents

/-- An edge of the simple view. -/
structure SimpleEdge where
  low : Nat
  high : Nat
  type : Datum
  /-- How the higher end is shown. -/
  shown : Datum
deriving Inhabited

/-- The edge that a link is in the simple view. -/
def Link.toEdge (l : Link) : SimpleEdge := ⟨l.low, l.high, l.type, l.shown⟩

/-- The nodes of a store with at most one edge between two of them. -/
structure SimpleView where
  nodes : List StoredNode
  edges : List SimpleEdge
deriving Inhabited

namespace SimpleView

/-- The last of the links in a row that join the same handles; later links have greater numbers. -/
def lastOfEach : List Link → List SimpleEdge
  | [] => []
  | [l] => [l.toEdge]
  | l :: m :: rest =>
    if l.low = m.low ∧ l.high = m.high then lastOfEach (m :: rest)
    else l.toEdge :: lastOfEach (m :: rest)

/-- The simple view of a store. -/
def ofContents (c : Contents) : SimpleView := ⟨c.sortedNodes, lastOfEach c.sortedLinks⟩

end SimpleView

end DegreeGraph
