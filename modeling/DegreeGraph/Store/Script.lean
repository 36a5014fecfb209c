import DegreeGraph.Store.Materialize

/-!
# Scripts for a store

A script is a list of steps. A step is one action or a transaction around further steps, and a failure of it
is either caught or goes on to the steps around it. Every step leaves an entry in a journal: what it answered
and what the store held afterwards. A transaction leaves an entry before its body as well.

At the top of a script a failure that nobody caught ends only its step.
-/

namespace DegreeGraph

/-- What can be done to a store. -/
inductive Action where
  /-- Looks a node up or makes it. -/
  | findOrCreate (label key property : Datum)
  /-- Looks a node up. -/
  | find (label key property : Datum)
  /-- Links two nodes. -/
  | createEdge (a b type : Datum)
  /-- Counts the nodes and the links. -/
  | counts
  /-- Takes the simple view. -/
  | view
  /-- Limits the attempts to make a link. -/
  | setLimit (limit : Option Int)
  /-- Fails. -/
  | fail (fault : Fault)
  /-- Writes edges under given settings. -/
  | materialize (edges : Datum) (given : List (String × Datum)) (count : Datum)
  /-- Realizes a degree sequence under given settings and writes the graph. -/
  | generate (sequence : Datum) (given : List (String × Datum)) (registry : Registry) (draws : Draws)
deriving Inhabited

/-- A step of a script. -/
inductive Step where
  | act (action : Action) (caught : Bool)
  | transaction (body : List Step) (caught : Bool)
deriving Inhabited

/-- What a step answers. -/
inductive Answer where
  | nothing
  | handle (handle : Option Nat)
  | counts (nodes links : Nat)
  | view (view : SimpleView)
  | written (count : Nat)
  | realized (realization : Realization) (seed : Datum)
  | finished

/-- An entry of a journal. -/
inductive Entry where
  /-- A transaction is about to be opened. -/
  | begun
  /-- An action has ended; what it answered and what the store held then. -/
  | acted (action : Action) (answer : Except Fault Answer) (after : Contents)
  /-- A transaction has ended. -/
  | closed (answer : Except Fault Answer) (after : Contents)

namespace Action

/-- Does an action. -/
def perform : Action → StoreM Answer
  | findOrCreate label key property => do return .handle (← Store.findOrCreate label key property)
  | find label key property => do return .handle (← Store.find label key property)
  | createEdge a b type => do
    Store.createEdge a b type
    return .nothing
  | counts => do
    let c := (← get).contents
    return .counts c.nodes.length c.links.length
  | view => do return .view (SimpleView.ofContents (← get).contents)
  | setLimit limit => do
    Store.setLimit limit
    return .nothing
  | fail fault => throw fault
  | materialize edges given count => do
    let config ← Store.lift (Config.ofFields given)
    return .written (← Store.materialize config.layout edges count)
  | generate sequence given registry draws => do
    let config ← Store.lift (Config.ofFields given)
    let r ← Store.generateGraph registry config draws sequence
    return .realized r (draws.seed config)

end Action

/-- What a step leaves behind: the failure that goes on, the store and the journal. -/
structure Outcome where
  fault : Option Fault
  store : Store
  journal : List Entry

/-- The failure of an answer. -/
def faultOf {α : Type} : Except Fault α → Option Fault
  | .ok _ => none
  | .error fault => some fault

/-- The failure that goes on from a step. -/
def passedOn (caught : Bool) (fault : Option Fault) : Option Fault := if caught then none else fault

mutual

/-- Runs a step. -/
def Step.run : Step → Store → Outcome
  | .act action caught, s =>
    let (answer, t) := action.perform.run s
    ⟨passedOn caught (faultOf answer), t, [.acted action answer t.contents]⟩
  | .transaction body caught, s =>
    if s.inTransaction then
      ⟨passedOn caught (some .nestedTransaction), s,
        [.begun, .closed (.error .nestedTransaction) s.contents]⟩
    else
      let inner := runBody body s.opened
      let answer : Except Fault Answer :=
        match inner.fault with
        | none => .ok .finished
        | some fault => .error fault
      let t := inner.store.closed s.contents answer
      ⟨passedOn caught inner.fault, t, .begun :: inner.journal ++ [.closed answer t.contents]⟩

/-- Runs steps until a failure goes on from one. -/
def runBody : List Step → Store → Outcome
  | [], s => ⟨none, s, []⟩
  | step :: rest, s =>
    let first := step.run s
    match first.fault with
    | some _ => first
    | none =>
      let later := runBody rest first.store
      { later with journal := first.journal ++ later.journal }

end

/-- Runs the steps of a script; a failure ends only its step. -/
def runScript : List Step → Store → Outcome
  | [], s => ⟨none, s, []⟩
  | step :: rest, s =>
    let first := step.run s
    let later := runScript rest first.store
    { later with journal := first.journal ++ later.journal }

end DegreeGraph
