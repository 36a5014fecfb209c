import DegreeGraph.Edge.Network
import DegreeGraph.Number.Literal
import DegreeGraph.Number.Nearest

/-!
# Weights of links

The nodes of a drawing are placed by forces along their links, and a link pulls with its weight. The weights of
a network are taken for an array of numbers: a text is read as one, nothing stands for the number that is none,
and lists in place of numbers must all have one shape. In the end there must be one number for every link.
-/

namespace DegreeGraph

open DegreeGraph.Number

namespace Datum

/-- What two shapes have in common at their beginning. -/
def commonShape : List Nat → List Nat → List Nat
  | a :: as, b :: bs => if a = b then a :: commonShape as bs else []
  | _, _ => []

/-- A shape, and whether everything has it. -/
structure Shape where
  sizes : List Nat
  even : Bool
deriving DecidableEq, Repr

mutual

/-- The shape of a datum: none for what is no list, and for a list its length and what its items have in
common. -/
def shape : Datum → Shape
  | list items => match itemShape items with
    | some s => ⟨items.length :: s.sizes, s.even⟩
    | none => ⟨[0], true⟩
  | null => ⟨[], true⟩
  | bool _ => ⟨[], true⟩
  | int _ => ⟨[], true⟩
  | float _ => ⟨[], true⟩
  | text _ => ⟨[], true⟩
  | record _ => ⟨[], true⟩

/-- What the shapes of items have in common, if there is an item. -/
def itemShape : List Datum → Option Shape
  | [] => none
  | item :: rest =>
    let s := shape item
    match itemShape rest with
    | none => some s
    | some t => some ⟨commonShape s.sizes t.sizes, s.even && t.even && s.sizes == t.sizes⟩

end

mutual

/-- The data in a datum that are no lists, in order. -/
def leaves : Datum → List Datum
  | list items => itemLeaves items
  | null => [null]
  | bool b => [bool b]
  | int z => [int z]
  | float x => [float x]
  | text s => [text s]
  | record fields => [record fields]

/-- The data in items that are no lists, in order. -/
def itemLeaves : List Datum → List Datum
  | [] => []
  | item :: rest => leaves item ++ itemLeaves rest

end

/-- A datum that is no list can be taken for a number in double precision. -/
def checkReal : Datum → Except Fault Unit
  | text s => if (readFloat? s.toList).isSome then .ok () else .error (.notFloatLiteral s)
  | int z => if (finiteToInt? z).isSome then .ok () else .error .oversizedForDouble
  | record _ => .error (.notReal .record)
  | _ => .ok ()

/-- The number in double precision that a datum is taken for. -/
def toReal : Datum → Float
  | bool b => if b then 1.0 else 0.0
  | int z => nearestToInt z
  | float x => x
  | text s => (readFloat? s.toList).getD notReal
  | _ => notReal
where
  /-- The number that is none. -/
  notReal : Float := 0.0 / 0.0

/-- All data can be taken for numbers, or the first that cannot. -/
def checkReals : List Datum → Except Fault Unit
  | [] => .ok ()
  | d :: rest => do
    checkReal d
    checkReals rest

end Datum

namespace Network

/-- The weights of the links as they are listed; a link without a weight has the weight one. -/
def weights (g : Network) : List Datum := g.listing.map fun l ↦ l.weight.getD (.float 1.0)

/-- The weights are numbers, one for every link. -/
def checkWeights (g : Network) : Except Fault Unit := do
  let weights := g.weights
  let shape := (Datum.list weights).shape
  if !shape.even then throw (.unevenShape shape.sizes)
  Datum.checkReals (Datum.itemLeaves weights)
  if 1 < shape.sizes.length && !shape.sizes.all (· == 1) then
    throw (.otherShape shape.sizes weights.length)

/-- The numbers that the weights are taken for. -/
def realWeights (g : Network) : List Float := (Datum.itemLeaves g.weights).map Datum.toReal

end Network

end DegreeGraph
