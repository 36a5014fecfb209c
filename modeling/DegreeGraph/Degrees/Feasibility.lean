import DegreeGraph.Degrees.HavelHakimi
import DegreeGraph.Degrees.Reading
import DegreeGraph.Total

/-!
# Feasibility tests and their names

A feasibility test decides which degree sequences the sampler may work towards. Two tests are exact
and built in; the others are rules that a caller adds, and they need not be sound. Tests are chosen by
name from a registry; an added test hides an earlier one of its name.
-/

namespace DegreeGraph

/-- A test on degree sequences. -/
inductive Feasibility where
  /-- The Erdős–Gallai test. -/
  | erdosGallai
  /-- The Havel–Hakimi test. -/
  | havelHakimi
  /-- The sequence is one of a list. -/
  | oneOf (sequences : List (List Int))
  /-- The sequence is graphical and not one of a list. -/
  | noneOf (sequences : List (List Int))
  /-- Every sequence passes. -/
  | always
  /-- The sum reaches a value. -/
  | sumAtLeast (value : Int)
deriving DecidableEq, Repr

/-- A sequence passes a test. -/
def Feasibility.passes : Feasibility → List Int → Bool
  | erdosGallai, ds => ErdosGallai.passes ds
  | havelHakimi, ds => HavelHakimi.passes ds
  | oneOf sequences, ds => sequences.contains ds
  | noneOf sequences, ds => ErdosGallai.passes ds && !sequences.contains ds
  | always, _ => true
  | sumAtLeast value, ds => value ≤ total ds

/-- Feasibility tests under their names. -/
abbrev Registry := List (String × Feasibility)

namespace Registry

/-- The tests that are always there. -/
def builtIn : Registry := [("erdos_gallai", .erdosGallai), ("havel_hakimi", .havelHakimi)]

/-- The built-in tests and added ones, of which later ones hide earlier ones. -/
def withAdded (added : List (String × Feasibility)) : Registry := added.reverse ++ builtIn

/-- The names of the tests, in alphabetical order, each once. -/
def names (r : Registry) : List String :=
  (sortedBy (fun a b ↦ decide (a ≤ b)) (r.map Prod.fst)).eraseReps

/-- The test of a name. -/
def resolve (r : Registry) (name : Datum) : Except Fault Feasibility :=
  match name with
  | .list _ => .error (.notKey .list)
  | .record _ => .error (.notKey .record)
  | .text s =>
    match r.lookup s with
    | some test => .ok test
    | none => .error (.unknownTest name r.names)
  | _ => .error (.unknownTest name r.names)

end Registry

end DegreeGraph
