import DegreeGraph.Degrees.Reading

/-!
# Failures made by hand

A caller may report a failure of the library with details of its own. Which details there are depends on the
failure: a failure without a cause takes anything, one of degrees takes the sequence and a text, both of
which may be left out, and one of a search takes the pivot, the draws and the restarts.
-/

namespace DegreeGraph

/-- The failures that can be made by hand. -/
inductive FailureKind where
  | unspecified
  | notGraphical
  | exhausted
deriving DecidableEq, Repr

namespace FailureKind

/-- The name of what makes a failure of degrees. -/
def notGraphicalMaker : String := "InvalidDistributionException.__init__()"

/-- The name of what makes a failure of a search. -/
def exhaustedMaker : String := "GenerationExhausted.__init__()"

/-- A failure of degrees with a sequence, which may be missing, and a text. -/
def makeNotGraphical (sequence text : Datum) : Except Fault Fault :=
  match sequence with
  | .null => .ok (.notGraphical none text)
  | d => do return .notGraphical (some (← partsOf d)) text

/-- The failure that details make. -/
def make (kind : FailureKind) (details : List Datum) : Except Fault Fault :=
  match kind, details with
  | unspecified, ds => .ok (.unspecified ds)
  | notGraphical, [] => makeNotGraphical .null (.text Fault.notGraphicalText)
  | notGraphical, [sequence] => makeNotGraphical sequence (.text Fault.notGraphicalText)
  | notGraphical, [sequence, text] => makeNotGraphical sequence text
  | notGraphical, ds => .error (.tooManyArguments notGraphicalMaker 1 3 (ds.length + 1))
  | exhausted, [pivot, attempts, restarts] => .ok (.exhausted pivot attempts restarts)
  | exhausted, ds =>
    .error (if ds.length < 3
      then .missingArguments exhaustedMaker (["pivot", "attempts", "restarts"].drop ds.length)
      else .tooManyArguments exhaustedMaker 4 4 (ds.length + 1))

end FailureKind

/-- The failure is one that the library has of its own. -/
def Fault.isOwn : Fault → Bool
  | .unspecified _ | .notGraphical .. | .exhausted .. => true
  | _ => false

end DegreeGraph
