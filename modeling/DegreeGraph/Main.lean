import DegreeGraph.Command.Session
import DegreeGraph.Figure.Plain
import DegreeGraph.PowerLaw.Pareto

/-!
# The program

The program carries out its arguments as a command line. What lies along the paths that they name is learned
from the disk first; the session then works on that tree alone, and what it changed there is brought to the
disk in the end.
-/

namespace DegreeGraph

namespace Invocation

/-- The paths that a command reads or writes. -/
def paths (i : Invocation) : List String :=
  match i.command with
  | .generate g =>
    let figures := [g.chart, g.drawing]
    [g.input.file, g.output, besidePath g.output] ++ figures ++ figures.map fun path ↦ (formatted path).1
  | .check input _ => [input.file]
  | .sample _ => []

/-- The seed of the variates of a command. -/
def variateSeed (i : Invocation) (unseeded : Nat) : Nat :=
  match i.command with
  | .sample law => (law.seed.toInt?.map Int.natAbs).getD unseeded
  | _ => unseeded

end Invocation

/-- The formats of figures. -/
def figureFormats : List String :=
  ["eps", "jpeg", "jpg", "pdf", "pgf", "png", "ps", "raw", "rgba", "svg", "svgz", "tif", "tiff", "webp"]

/-- A path up to each of its names. -/
def pathStarts (path : String) : List String :=
  let names := Place.namesOf path
  (List.range names.length).map fun i ↦ "/".intercalate (names.take (i + 1))

/-- An empty folder and those above it. -/
def FileTree.around (work : Place) : FileTree :=
  ⟨work, (List.range work.length).map fun i ↦ work.take (i + 1), []⟩

/-- Adds to a tree what lies on the disk at a path; a file that holds no text counts as empty. -/
def learnAt (t : FileTree) (path : String) : IO FileTree := do
  let here := (← IO.currentDir) / path
  let place := Place.resolve t.work path
  if ← here.isDir then
    return { t with folders := t.folders ++ [place] }
  else if ← here.pathExists then
    let text ← try IO.FS.readFile here catch _ => pure ""
    return t.put place text
  else return t

/-- The tree of what lies on the disk along paths. -/
def learn (paths : List String) : IO FileTree := do
  let work := Place.resolve [] (← IO.currentDir).toString
  let starts := (paths.flatMap pathStarts).filter (· != "")
  starts.foldlM learnAt (.around work)

/-- Brings to the disk what differs between two trees. -/
def bring (before after : FileTree) : IO Unit := do
  for folder in after.folders do
    if !before.isFolder folder then IO.FS.createDirAll folder.toPath
  for (place, text) in after.files do
    if before.textAt? place != some text then IO.FS.writeFile place.toPath text
  for (place, _) in before.files do
    if (after.textAt? place).isNone then IO.FS.removeFile place.toPath

/-- A report as a line. -/
def Event.line (e : Event) : String := e.level.name ++ "  " ++ e.reporter ++ " — " ++ e.text

/-- The number that an ending gives to the caller; the cause of a failure is told. -/
def Ending.tell : Ending → IO UInt32
  | .code c => return UInt32.ofNat c.number
  | .refused refusal => return UInt32.ofNat refusal.exitNumber
  | .failed fault => do
    IO.eprintln fault.message
    return 1

end DegreeGraph

open DegreeGraph in
/-- Carries out the arguments of the program. -/
def main (args : List String) : IO UInt32 := do
  let seed : Nat := ← IO.rand 0 (Number.twoTo 62)
  let (paths, variateSeed) := match Invocation.ofArguments .builtIn args with
    | .ok invocation => (invocation.paths, invocation.variateSeed seed)
    | .error _ => ([], seed)
  let before ← learn paths
  let env : Environment Twister :=
    { unseeded := .twister (.int seed)
      variates := Twister.variates
      state := .ofSeed variateSeed
      admits := fun law ↦ checkVariateSeed law.seed.toInt?
      render := .byEnding figureFormats Figure.plain }
  let finished := carryOut env before args
  IO.print finished.session.output
  finished.reports.forM fun e ↦ IO.eprintln e.line
  finished.session.errors.forM fun line ↦ IO.eprintln line
  bring before finished.session.tree
  finished.ending.tell
