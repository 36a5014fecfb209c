import DegreeGraph.Command.Invocation
import DegreeGraph.Degrees.Literal
import DegreeGraph.Edge.Saved
import DegreeGraph.Figure.Saved
import DegreeGraph.Sampling.Realization
import DegreeGraph.Table.Degrees

/-!
# Sessions

A session carries out one command line on a tree of files and ends with a code: zero if all went well, one
for degrees that no graph has or that could not be sampled, two for input that cannot be used, and three for
a search that was given up. A wrong command line is refused with code two before anything is done.

What is written, reported and drawn is kept in the session. A failure that no code stands for ends the
session without one; that is how an edge list or a figure fails that cannot be saved. Variates, the places of
nodes and the files of figures are left to the environment, and each of them may fail.
-/

namespace DegreeGraph

open DegreeGraph.Number

universe u

variable {σ : Type u}

/-- The codes with which a command ends. -/
inductive ExitCode where
  | fine
  | notGraphical
  | badInput
  | exhausted
deriving DecidableEq, Repr

/-- The number of a code. -/
def ExitCode.number : ExitCode → Nat
  | fine => 0
  | notGraphical => 1
  | badInput => 2
  | exhausted => 3

/-- What a session can rely on. -/
structure Environment (σ : Type u) where
  /-- The feasibility tests. -/
  registry : Registry := .builtIn
  /-- The draws of a run without a seed. -/
  unseeded : Draws := .own .null
  /-- The variates of samples. -/
  variates : Variates σ
  /-- The state of the variates. -/
  state : σ
  /-- Whether variates can be drawn for what a sample is asked for: its seed may be none of theirs, or they may be
  too many. -/
  admits : PowerLaw → Except Fault Unit := fun _ ↦ .ok ()
  /-- Whether the nodes of a network can be placed from a seed. -/
  placing : Network → Datum → Except Fault Unit := Drawing.placingAlone
  /-- What writes the files of figures. -/
  render : Renderer

/-- The state in which the variates of a sample start. -/
def Environment.start (env : Environment σ) (law : PowerLaw) : Except Fault σ :=
  match env.admits law with
  | .ok _ => .ok env.state
  | .error fault => .error fault

/-- What a session has done so far. -/
structure Session where
  tree : FileTree
  /-- The text on the standard output. -/
  output : String := ""
  /-- The lines on the error output. -/
  errors : List String := []
  /-- All reports, in order. -/
  events : List Event := []
  /-- The figures that were rendered, in order. -/
  figures : List Figure := []

/-- A step of a session. -/
abbrev SessionM := ExceptT Fault (StateM Session)

namespace SessionM

/-- A line on the standard output. -/
def printLine (text : String) : SessionM Unit :=
  modify fun s ↦ { s with output := s.output ++ text ++ "\n" }

/-- Reports. -/
def report (events : List Event) : SessionM Unit :=
  modify fun s ↦ { s with events := s.events ++ events }

/-- A line on the error output, and a code to end with. -/
def complain (text : String) (code : ExitCode) : SessionM ExitCode := do
  modify fun s ↦ { s with errors := s.errors ++ ["error: " ++ text] }
  return code

/-- An answer, as a step. -/
def ofAnswer {α : Type} (answer : Except Fault α) : SessionM α :=
  match answer with
  | .ok a => pure a
  | .error fault => throw fault

/-- A step on the files. -/
def onFiles {α : Type} (step : FileM α) : SessionM α := do
  let (answer, tree) := step.run (← get).tree
  modify fun s ↦ { s with tree := tree }
  match answer with
  | .ok a => return a
  | .error fault => throw fault

/-- A step, or what is to be done about its failure if a condition holds for it. -/
def orElse {α : Type} (step : SessionM α) (handles : Fault → Bool) (next : α → SessionM ExitCode)
    (handler : Fault → SessionM ExitCode) : SessionM ExitCode := fun s ↦
  match step.run s with
  | (.ok a, t) => next a t
  | (.error fault, t) => if handles fault then handler fault t else (.error fault, t)

end SessionM

open SessionM

/-- The failure lies in the input. -/
def Fault.isBadInput (fault : Fault) : Bool := fault.isBadValue || fault.isFileTrouble

/-- The degrees of an input. -/
def loadDegrees (input : DegreeInput) : SessionM (List Int) := do
  if input.file != "" && !input.words.isEmpty then throw .twoInputs
  else if input.file != "" then
    report [loadingEvent input.file input.column]
    onFiles (readDegreeColumn input.file input.column)
  else
    match parseDegrees (" ".intercalate input.words) with
    | .ok degrees => return degrees
    | .error fault => throw fault

/-- Goes on with the degrees of an input, or complains that it cannot be used. -/
def withDegrees (input : DegreeInput) (next : List Int → SessionM ExitCode) : SessionM ExitCode :=
  orElse (loadDegrees input) Fault.isBadInput next fun fault ↦ complain fault.message .badInput

/-! ## Generating -/

/-- What the sampler is told. -/
def Generation.config (g : Generation) : Config :=
  { budget := if g.budget.holds then g.budget else .null
    restarts := g.restarts
    test := g.test
    seed := g.seed }

/-- The draws of a generation. -/
def Generation.draws (g : Generation) (unseeded : Draws) : Draws :=
  match g.seed with
  | .null => unseeded
  | seed => .own seed

/-- The line of an edge on the standard output. -/
def edgeText (e : Edge) : String := toString e.1 ++ " " ++ toString e.2

/-- Prints edges line by line. -/
def printEdges : List Edge → SessionM Unit
  | [] => pure ()
  | e :: rest => do
    printLine (edgeText e)
    printEdges rest

/-- Saves a figure, which is rendered once its folder is there. -/
def saveFigure (renderer : Renderer) (f : Figure) (path : String) : SessionM Unit := do
  onFiles (FileM.makeFolderOf path)
  modify fun s ↦ { s with figures := s.figures ++ [f] }
  onFiles (renderer.write f path)
  report [f.savedEvent path]

/-- Writes the edges of a realization to where they belong. -/
def deliver (g : Generation) (r : Realization) : SessionM Unit := do
  if g.output != "" then
    let event ← onFiles (writeEdgeList r.edgeData g.output)
    report [event]
  else printEdges r.edges

/-- Saves the figures of a realization that are asked for. -/
def saveFigures (env : Environment σ) (g : Generation) (degrees : List Int) (r : Realization) :
    SessionM Unit := do
  if g.chart != "" then
    let chart ← ofAnswer ((Chart.ofEdges (sequenceDatum degrees) r.edgeData).map .chart)
    saveFigure env.render chart g.chart
  if g.drawing != "" then
    let drawing ← ofAnswer
      ((Drawing.ofEdges r.edgeData (.int degrees.length) g.seed env.placing).map .drawing)
    saveFigure env.render drawing g.drawing

/-- The part that reports on commands. -/
def commandReporter : String := "graphgen.cli"

/-- The report at the end of a generation. -/
def doneEvent (nodes : Nat) (r : Realization) : Event :=
  ⟨.info, commandReporter,
    "Done: " ++ toString nodes ++ " nodes, " ++ toString r.order.length ++ " edges, "
      ++ toString r.restarts ++ " restart(s)."⟩

/-- The code for a failure to realize degrees. -/
def realizationCode? : Fault → Option ExitCode
  | .notGraphical .. => some .notGraphical
  | .exhausted .. => some .exhausted
  | _ => none

/-- What a generation does with the outcome of the sampler. -/
def finish (env : Environment σ) (g : Generation) (degrees : List Int) :
    Except Fault Realization → SessionM ExitCode
  | .error fault =>
    match realizationCode? fault with
    | some code => complain fault.message code
    | none => throw fault
  | .ok r => do
    deliver g r
    saveFigures env g degrees r
    report [doneEvent degrees.length r]
    return .fine

/-- Generates a graph with given degrees. -/
def generateWith (env : Environment σ) (g : Generation) (degrees : List Int) : SessionM ExitCode := do
  if ← ofAnswer (g.budget.related .less (.int 0)) then
    complain "--max-attempts must be >= 0" .badInput
  else if ← ofAnswer (g.restarts.related .less (.int 0)) then
    complain "--max-restarts must be >= 0" .badInput
  else
    let sampling :=
      realize env.registry g.config (g.draws env.unseeded) (sequenceDatum degrees)
    report sampling.events
    finish env g degrees sampling.answer

/-! ## Checking and sampling -/

/-- Tells whether degrees are graphical. -/
def checkWith (env : Environment σ) (test : Datum) (degrees : List Int) : SessionM ExitCode := do
  let test ← ofAnswer (env.registry.resolve test)
  if test.passes degrees then
    printLine "graphical"
    return .fine
  else
    printLine "not graphical"
    return .notGraphical

/-- The code for a failure to sample degrees. -/
def samplingCode? (fault : Fault) : Option ExitCode :=
  if fault.isBadValue then some .badInput else if fault.isGivenUp then some .notGraphical else none

/-- Prints degrees from a power law. -/
def sampleFrom (env : Environment σ) (law : PowerLaw) : SessionM ExitCode := do
  let sample := law.sampleStarting env.variates (env.start law)
  report sample.events
  match sample.answer with
  | .ok degrees =>
    printLine (writeDegrees degrees)
    return .fine
  | .error fault =>
    match samplingCode? fault with
    | some code => complain fault.message code
    | none => throw fault

/-! ## Command lines -/

/-- Carries out a command. -/
def Command.perform (env : Environment σ) : Command → SessionM ExitCode
  | .generate g => withDegrees g.input (generateWith env g)
  | .check input test => withDegrees input (checkWith env test)
  | .sample law => sampleFrom env law

/-- How a command line ends. -/
inductive Ending where
  /-- The command ends with a code. -/
  | code (code : ExitCode)
  /-- The command line is refused. -/
  | refused (refusal : Refusal)
  /-- A failure that no code stands for. -/
  | failed (fault : Fault)

/-- The number with which a refusal ends. -/
def Refusal.exitNumber : Refusal → Nat
  | help _ => 0
  | misuse .. => 2

/-- The line of a refusal on the error output. -/
def Refusal.errorLine? : Refusal → Option String
  | help _ => none
  | misuse program text => some (program ++ ": error: " ++ text)

/-- The session after a command line, how it ended, and the least level of the reports. -/
structure Finished where
  session : Session
  ending : Ending
  level : Level

/-- The reports of a session from its level on. -/
def Finished.reports (f : Finished) : List Event := eventsFrom f.level f.session.events

/-- Carries out an invocation with reports from a level on. -/
def Invocation.perform (env : Environment σ) (tree : FileTree) (i : Invocation) : Finished :=
  match i.level with
  | .error fault => ⟨{ tree := tree }, .failed fault, .warning⟩
  | .ok level =>
    match (i.command.perform env).run { tree := tree } with
    | (.ok code, session) => ⟨session, .code code, level⟩
    | (.error fault, session) => ⟨session, .failed fault, level⟩

/-- Carries out a command line on a tree of files. -/
def carryOut (env : Environment σ) (tree : FileTree) (arguments : List String) : Finished :=
  match Invocation.ofArguments env.registry arguments with
  | .error refusal =>
    ⟨{ tree := tree, errors := refusal.errorLine?.toList }, .refused refusal, .warning⟩
  | .ok invocation => invocation.perform env tree

end DegreeGraph
