import DegreeGraph.Datum.Order
import DegreeGraph.Store.Contents

/-!
# A graph store

A store takes nodes and links one at a time and undoes all that was done in a transaction that fails. Its
steps answer or fail, and the store stays as a failing step left it: a handle may be used up by a node that
could not be made.

Links can be limited: from some number of attempts on, making a link fails. This is how a store that goes
away in the middle of a transaction is described.

## Transactions

A transaction is not opened inside another. It keeps the contents of the store from before its body; when
the body fails they are put back and the failure goes on, otherwise what the body did stays. In both cases
the store is out of the transaction.
-/

namespace DegreeGraph

/-- A graph store. -/
structure Store where
  /-- The property that holds the key of a node where none is named. -/
  keyProperty : Datum := .text "name"
  /-- The nodes and links. -/
  contents : Contents := {}
  /-- A transaction is open. -/
  inTransaction : Bool := false
  /-- How many attempts to make a link may come before all others fail. -/
  limit : Option Int := none
  /-- The number of attempts to make a link. -/
  attempts : Nat := 0
deriving Inhabited

/-- A step on a store. -/
abbrev StoreM := ExceptT Fault (StateM Store)

namespace Store

/-- The name of a node in the store, whose own property takes the place of one that does not hold. -/
def nameOf (s : Store) (label key property : Datum) : NodeName :=
  ⟨label, if property.holds then property else s.keyProperty, key⟩

/-- The names that a key property cannot have. -/
def reservedProperties : List String := ["label", "self", "node_for_adding"]

/-- The store with other contents. -/
def withContents (s : Store) (c : Contents) : Store := { s with contents := c }

/-- The handle that a datum is. -/
def handle? (s : Store) (d : Datum) : Option Nat :=
  (s.contents.nodes.find? fun n ↦ d.same (.int n.handle)).map (·.handle)

/-- An answer or a failure, as a step. -/
def lift {α : Type} (answer : Except Fault α) : StoreM α :=
  match answer with
  | .ok a => pure a
  | .error fault => throw fault

/-- The handle of a node, if it exists. -/
def find (label key property : Datum) : StoreM (Option Nat) := do
  let s ← get
  return s.contents.find? (← lift (s.nameOf label key property).nodeKey)

/-- The name of a property that can hold a key. -/
def propertyName (property : Datum) : Except Fault String :=
  match property with
  | .text name => if reservedProperties.contains name then .error (.reservedProperty name) else .ok name
  | _ => .error .notKeyword

/-- The handle of a node, which is made if it does not exist. -/
def findOrCreate (label key property : Datum) : StoreM Nat := do
  let s ← get
  let name := s.nameOf label key property
  let k ← lift name.nodeKey
  match s.contents.find? k with
  | some h => return h
  | none =>
    match propertyName name.property with
    | .error fault =>
      set (s.withContents s.contents.skipHandle)
      throw fault
    | .ok held =>
      set (s.withContents (s.contents.addNode k (name.attributes held)))
      return s.contents.nextHandle

/-- One more attempt to make a link, within the limit. -/
def countAttempt : StoreM Unit := do
  modify fun s ↦ { s with attempts := s.attempts + 1 }
  let s ← get
  if s.limit.any (· < (s.attempts : Int)) then throw .storeGone

/-- How a link between two handles shows its higher end, which it names in some way; a loop shows the handle. -/
def shownAs (h k : Nat) (a b : Datum) : Datum :=
  if h = k then .int h else if k < h then a else b

/-- The failure to link what are no handles; data that cannot be written are not named in it. -/
def unknownEnds (a b : Datum) : Fault :=
  if a.isWritable && b.isWritable then .unknownHandle a b else .tooManyDigits none

/-- A link between two nodes. -/
def createEdge (a b type : Datum) : StoreM Unit := do
  countAttempt
  let s ← get
  match s.handle? a, s.handle? b with
  | some h, some k =>
    set (s.withContents (s.contents.addLink h k type (shownAs h k a b)))
  | _, _ => throw (unknownEnds a b)

/-- Links are limited from now on. -/
def setLimit (limit : Option Int) : StoreM Unit :=
  modify fun s ↦ { s with limit := limit, attempts := 0 }

/-! ## Transactions -/

/-- The store inside a transaction. -/
def opened (s : Store) : Store := { s with inTransaction := true }

/-- The store after a transaction that went well. -/
def committed (s : Store) : Store := { s with inTransaction := false }

/-- The store after a transaction that failed, with the contents from before it. -/
def rolledBack (s : Store) (before : Contents) : Store :=
  { s with contents := before, inTransaction := false }

/-- The store after a transaction that began with some contents. -/
def closed {α : Type} (before : Contents) (answer : Except Fault α) (s : Store) : Store :=
  match answer with
  | .ok _ => s.committed
  | .error _ => s.rolledBack before

/-- A body of steps as one transaction. -/
def transaction {α : Type} (body : StoreM α) : StoreM α := fun s ↦
  if s.inTransaction then (.error .nestedTransaction, s)
  else
    let (answer, t) := body.run s.opened
    (answer, t.closed s.contents answer)

end Store

end DegreeGraph
