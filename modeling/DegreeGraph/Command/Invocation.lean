import DegreeGraph.Command.Arguments
import DegreeGraph.Config
import DegreeGraph.Degrees.Feasibility
import DegreeGraph.Event
import DegreeGraph.PowerLaw.Sample

/-!
# Invocations

The program has three commands: to generate a graph with given degrees, to check whether there is one, and
to sample degrees from a power law. In front of the command stands the level of the reports.

Arguments that a command leaves over are refused in the name of the program, together with those that were
left over in front of the command.
-/

namespace DegreeGraph

/-- Where degrees come from. -/
structure DegreeInput where
  /-- Degrees on the command line. -/
  words : List String := []
  /-- The path of a table. -/
  file : String := ""
  /-- The name of the column of the table. -/
  column : Datum := .text "degree"

/-- What a graph is generated from and where it goes. -/
structure Generation where
  input : DegreeInput
  /-- The name of the feasibility test. -/
  test : Datum
  /-- The seed of the draws; null for draws without one. -/
  seed : Datum
  /-- How many partners may be drawn for one pivot; zero for any number. -/
  budget : Datum
  /-- How many runs may be abandoned. -/
  restarts : Datum
  /-- Where the edge list goes; empty for the standard output. -/
  output : String
  /-- Where a chart goes; empty for none. -/
  chart : String
  /-- Where a drawing goes; empty for none. -/
  drawing : String

/-- A command with its arguments. -/
inductive Command where
  | generate (generation : Generation)
  | check (input : DegreeInput) (test : Datum)
  | sample (law : PowerLaw)

/-- A command and the name of the least level of the reports. -/
structure Invocation where
  levelName : Datum
  command : Command

namespace Invocation

/-! ## What the commands take -/

/-- The name of the program. -/
def program : String := "graphgen"

/-- The option that asks for help. -/
def helpOption : OptionSpec := ⟨["-h", "--help"], "help", none⟩

/-- An option with a value. -/
def option (name field : String) (kind : ValueKind) : OptionSpec := ⟨[name], field, some kind⟩

/-- The names of the commands. -/
def commandNames : List String := ["generate", "check", "sample"]

/-- What stands in front of a command. -/
def mainGrammar : Grammar :=
  { program := program
    options := [helpOption, option "--log-level" "level" (.choice (Level.all.map Level.name))]
    positional := .command "COMMAND" commandNames }

/-- The options that say where degrees come from and how they are tested. -/
def inputOptions (registry : Registry) : List OptionSpec :=
  [option "--file" "file" .text, option "--column" "column" .text,
    option "--feasibility-test" "test" (.choice registry.names)]

/-- What the command to generate a graph takes. -/
def generateGrammar (registry : Registry) : Grammar :=
  { program := program ++ " generate"
    options := helpOption :: inputOptions registry
      ++ [option "--seed" "seed" .integer, option "--max-attempts" "budget" .integer,
        option "--max-restarts" "restarts" .integer, option "--output" "output" .text,
        option "--plot" "chart" .text, option "--draw" "drawing" .text]
    positional := .many "degrees" }

/-- What the command to check degrees takes. -/
def checkGrammar (registry : Registry) : Grammar :=
  { program := program ++ " check"
    options := helpOption :: inputOptions registry
    positional := .many "degrees" }

/-- What the command to sample degrees takes. -/
def sampleGrammar : Grammar :=
  { program := program ++ " sample"
    options := [helpOption, option "--gamma" "exponent" .real, option "--seed" "seed" .integer,
      option "--min-degree" "least" .integer, option "--max-degree" "greatest" .integer]
    positional := .single "N" "count" .integer }

/-! ## Commands -/

/-- The text of a field; empty if there is none. -/
def textOf (a : Arguments) (field : String) : String := ((a.value? field).bind Datum.toText?).getD ""

/-- The value of a field, or another one if there is none. -/
def valueOf (a : Arguments) (field : String) (otherwise : Datum) : Datum :=
  (a.value? field).getD otherwise

/-- Where degrees come from. -/
def inputOf (a : Arguments) : DegreeInput :=
  { words := a.words.getD []
    file := textOf a "file"
    column := valueOf a "column" (.text "degree") }

/-- The test of a field. -/
def testOf (a : Arguments) : Datum := valueOf a "test" ({} : Config).test

/-- A command for its name and the arguments behind it, and what is left over. -/
def commandOf (registry : Registry) (name : String) (arguments : List String) :
    Except Refusal (Command × List String) :=
  match name with
  | "generate" => do
    let a ← (generateGrammar registry).read arguments
    return (.generate
      { input := inputOf a
        test := testOf a
        seed := valueOf a "seed" .null
        budget := valueOf a "budget" ({} : Config).budget
        restarts := valueOf a "restarts" ({} : Config).restarts
        output := textOf a "output"
        chart := textOf a "chart"
        drawing := textOf a "drawing" }, a.extras)
  | "check" => do
    let a ← (checkGrammar registry).read arguments
    return (.check (inputOf a) (testOf a), a.extras)
  | _ => do
    let a ← sampleGrammar.read arguments
    return (.sample
      { count := (a.value? "count").getD (.int 0)
        exponent := valueOf a "exponent" (.float 2.5)
        seed := valueOf a "seed" .null
        least := valueOf a "least" (.int 1)
        greatest := valueOf a "greatest" .null }, a.extras)

/-- The invocation that a command line is. -/
def ofArguments (registry : Registry) (arguments : List String) : Except Refusal Invocation := do
  let a ← mainGrammar.read arguments
  let words := a.words.getD []
  let (command, extras) ← commandOf registry (words.headD "") words.tail
  match a.extras ++ extras with
  | [] => return ⟨valueOf a "level" (.text Level.warning.name), command⟩
  | extras => mainGrammar.misuse ("unrecognized arguments: " ++ " ".intercalate extras)

/-- The least level of the reports. -/
def level (i : Invocation) : Except Fault Level :=
  match i.levelName with
  | .text s => .ok ((Level.ofName? s).getD .info)
  | d => .error (.notText d.kind "upper")

end Invocation

end DegreeGraph
