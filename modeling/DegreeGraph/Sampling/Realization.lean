import DegreeGraph.Config
import DegreeGraph.Degrees.Feasibility
import DegreeGraph.Edge.Ends
import DegreeGraph.Event
import DegreeGraph.Sampling.Run
import DegreeGraph.Sampling.Seed
import DegreeGraph.Sampling.Twister

/-!
# Realizations of a degree sequence

The degrees are tested once at the entry; only a sequence that passes is sampled. The answer is either
a realization, with its edges and the statistics of all runs, or the cause of the failure: degrees that
do not pass, or a search that found no partner in the first run and in every restart. A sampling also
tells which draws were asked for and what was reported.

The statistics are read off the recorded runs and are not counted along the way.
-/

namespace DegreeGraph

open DegreeGraph.Number

universe u

variable {σ : Type u}

/-- One edge is not behind another in the order of written edge lists. -/
def edgeAtMost (e f : Edge) : Bool := e.1 < f.1 || (e.1 == f.1 && e.2 ≤ f.2)

/-- A graph with the degrees that were asked for, and how it was found. -/
structure Realization where
  /-- The edges in the order in which they were placed. -/
  order : List Edge
  /-- The number of draws of all runs. -/
  attempts : Nat
  /-- How often all runs asked the feasibility test. -/
  checks : Nat
  /-- The number of runs that were abandoned. -/
  restarts : Nat
deriving DecidableEq, Repr

namespace Realization

/-- The edges in ascending order. -/
def edges (r : Realization) : List Edge := sortedBy edgeAtMost r.order

/-- The edges as data. -/
def edgeData (r : Realization) : Datum := .list (r.edges.map fun e ↦ edgeDatum e.1 e.2)

/-- The number of turns of the last run. -/
def iterations (r : Realization) : Nat := r.order.length

end Realization

/-! ## The outcome of all runs -/

namespace Attempt

/-- The realization that the runs found, or the pivot at which the last of them gave up. -/
def outcome (a : Attempt σ) : Except Fault Realization :=
  match a.last.givenUp? with
  | some turn =>
    .error (.exhausted (.int turn.pivot) (.int a.draws) (.int a.abandoned.length))
  | none => .ok ⟨a.last.edges, a.draws, a.checks, a.abandoned.length⟩

end Attempt

/-- What became of a degree sequence: the runs that were made, if it came to that, and the answer. -/
structure Sampling where
  /-- The bounds of the draws, in order. -/
  asked : List Nat
  /-- What was reported, in order. -/
  events : List Event
  /-- The realization or the cause of the failure. -/
  answer : Except Fault Realization

namespace Sampling

/-- A failure before any draw. -/
def failed (fault : Fault) : Sampling := ⟨[], [], .error fault⟩

end Sampling

/-! ## Reports -/

/-- The part that reports on sampling. -/
def samplingReporter : String := "graphgen.graph.generator"

/-- The report on a pivot without a partner, among a number of other nodes. -/
def exhaustedEvent (others : Nat) (t : Turn) : Event :=
  ⟨.debug, samplingReporter,
    "Pivot " ++ toString t.pivot ++ " (residual " ++ writeInt t.demand ++ ") exhausted after "
      ++ toString t.draws ++ " draws, " ++ toString t.untried.length ++ "/" ++ toString others
      ++ " partners untried."⟩

/-- The report on a restart, the number of restarts so far included. -/
def restartEvent (pivot restarts : Nat) (most : Int) : Event :=
  ⟨.warning, samplingReporter,
    "Sampling gave up at pivot " ++ toString pivot ++ "; restarting (" ++ toString restarts ++ "/"
      ++ writeInt most ++ ")."⟩

/-- The report on a realization. -/
def generatedEvent (nodes : Nat) (r : Realization) : Event :=
  ⟨.info, samplingReporter,
    "Generated " ++ toString r.order.length ++ " edges for " ++ toString nodes ++ " nodes: "
      ++ toString r.attempts ++ " draws, " ++ toString r.checks ++ " feasibility checks, "
      ++ toString r.restarts ++ " restart(s)."⟩

/-- The reports on abandoned runs, the first of which is restart number `restarts + 1`. -/
def abandonedEvents (others : Nat) (most : Int) : (restarts : Nat) → List (Run σ) → List Event
  | _, [] => []
  | restarts, r :: rest =>
    (match r.givenUp? with
      | some t => [exhaustedEvent others t, restartEvent t.pivot (restarts + 1) most]
      | none => [])
    ++ abandonedEvents others most (restarts + 1) rest

/-- The reports on all runs. -/
def attemptEvents (nodes : Nat) (most : Int) (a : Attempt σ) : List Event :=
  abandonedEvents (nodes - 1) most 0 a.abandoned
    ++ match a.last.givenUp?, a.outcome with
      | some t, _ => [exhaustedEvent (nodes - 1) t]
      | none, .ok r => [generatedEvent nodes r]
      | none, .error _ => []

/-! ## Sampling -/

/-- All runs for degrees that need not pass the test, from a state of a source. -/
def attemptAll (feasible : List Int → Bool) (settings : Settings) (source : Source σ)
    (degrees : List Int) (state : σ) : Attempt σ :=
  attempt feasible settings source degrees settings.restarts.toNat state

/-- A realization of degrees under a test, from a state of a source. -/
def sampleDegrees (feasible : List Int → Bool) (settings : Settings) (source : Source σ)
    (state : σ) (degrees : List Int) : Sampling :=
  if feasible degrees then
    let a := attemptAll feasible settings source degrees state
    ⟨a.bounds, attemptEvents degrees.length settings.shownRestarts a, a.outcome⟩
  else .failed (.notRealizable degrees)

/-! ## Settings -/

namespace Config

/-- The least integer that is not below a number; the lower one of two for what no integer is near. -/
def ceiling (x : Float) : Int := -floorBetween (-(twoTo 1024 : Nat)) (twoTo 1024) (-x)

/-- What the sampler takes from the settings. A limit with a fraction allows the next whole number. -/
def settings (c : Config) : Settings :=
  { budget := match c.budget with
      | .float x => some (ceiling x)
      | d => d.toInt?
    restarts := match c.restarts with
      | .float x => ceiling x
      | d => d.toInt?.getD 0
    shownRestarts := match c.restarts with
      | .float x => ((Binary64.ofFloat x).truncated?).getD 0
      | d => d.toInt?.getD 0
    skipSpent := c.skipSpent.holds }

/-- A count cannot be compared with a datum. -/
def countFault? (d : Datum) : Option Fault :=
  match d.related .atMost (.int 0) with
  | .ok _ => none
  | .error _ => some (.incomparable .atLeast .int d.kind)

/-- The failure of a budget that is no number, which comes up when the first partner is searched among some
others. -/
def budgetFault? (c : Config) (degrees : List Int) : Option Fault :=
  match c.budget with
  | .null => none
  | d => if 1 < degrees.length && (selectPivot degrees).isSome then countFault? d else none

/-- The failure of a limit of restarts that is no number, which comes up when a run is abandoned. -/
def restartsFault? (c : Config) : Option Fault := countFault? c.restarts

end Config

namespace Sampling

/-- A sampling whose search found no partner fails in another way. -/
def insteadOfExhausted (s : Sampling) (fault : Fault) : Sampling :=
  match s.answer with
  | .error (.exhausted ..) => { s with answer := .error fault }
  | _ => s

end Sampling

/-- A realization of degrees under a test with settings that may be unfit, from a state of a source. -/
def sampleWith (config : Config) (feasible : List Int → Bool) (source : Source σ) (state : σ)
    (degrees : List Int) : Sampling :=
  if !feasible degrees then .failed (.notRealizable degrees)
  else
    match config.budgetFault? degrees, config.restartsFault? with
    | some fault, _ => .failed fault
    | none, some fault =>
      (sampleDegrees feasible { config.settings with restarts := 0 } source state
        degrees).insteadOfExhausted fault
    | none, none => sampleDegrees feasible config.settings source state degrees

/-- Where draws come from. -/
inductive Draws where
  /-- A list of integers, over and over. -/
  | script (values : List Int)
  /-- The twister that a caller has started with a seed. -/
  | twister (seed : Datum)
  /-- The twister of a seed that belongs to the run; null for draws without a seed. -/
  | own (seed : Datum)
deriving Inhabited

namespace Draws

/-- The seed that the draws are reported with, if the settings have one. -/
def seed (config : Config) : Draws → Datum
  | script _ => .null
  | twister _ => .null
  | own .null => config.seed
  | own s => s

/-- The draws can be started by a caller: the seed of a twister that a caller starts is one. -/
def check : Draws → Except Fault Unit
  | twister seed => do
    let _ ← seedNumber seed
    return
  | _ => .ok ()

/-- A realization of degrees under a test with draws from a seed, which is looked at once the degrees have
passed the test. -/
def sampleSeeded (config : Config) (feasible : List Int → Bool) (seed : Datum) (degrees : List Int) :
    Sampling :=
  match seedNumber seed with
  | .ok n => sampleWith config feasible Twister.source (.ofSeed n) degrees
  | .error fault => .failed (if feasible degrees then fault else .notRealizable degrees)

/-- A realization of degrees under a test, with these draws. -/
def sample (d : Draws) (config : Config) (feasible : List Int → Bool) (degrees : List Int) :
    Sampling :=
  match d with
  | script values => sampleWith config feasible (scriptSource values) 0 degrees
  | twister seed => sampleSeeded config feasible seed degrees
  | own _ => sampleSeeded config feasible (d.seed config) degrees

end Draws

/-- A realization of a datum by a sampler of degrees under a test: the datum is read as a degree sequence, the
test is looked up, and then the sampler has its turn. -/
def realizeBy (registry : Registry) (config : Config)
    (sampler : (List Int → Bool) → List Int → Sampling) (sequence : Datum) : Sampling :=
  match degreesOf sequence with
  | .error fault => .failed fault
  | .ok degrees =>
    match registry.resolve config.test with
    | .error fault => .failed fault
    | .ok test => sampler test.passes degrees

/-- A realization of a datum, with draws from a state of any source. -/
def realizeFrom (registry : Registry) (config : Config) (source : Source σ) (state : σ)
    (sequence : Datum) : Sampling :=
  realizeBy registry config (fun feasible degrees ↦ sampleWith config feasible source state degrees)
    sequence

/-- A realization of a datum: draws that a caller starts are started before the datum is read. -/
def realize (registry : Registry) (config : Config) (draws : Draws) (sequence : Datum) : Sampling :=
  match draws.check with
  | .error fault => .failed fault
  | .ok _ => realizeBy registry config (draws.sample config) sequence

theorem realize_script (registry : Registry) (config : Config) (values : List Int)
    (sequence : Datum) : realize registry config (.script values) sequence
      = realizeFrom registry config (scriptSource values) 0 sequence := rfl

theorem realize_twister (registry : Registry) (config : Config) {seed : Datum} {n : Nat}
    (h : seedNumber seed = .ok n) (sequence : Datum) :
    realize registry config (.twister seed) sequence
      = realizeFrom registry config Twister.source (.ofSeed n) sequence := by
  have hcheck : (Draws.twister seed).check = .ok () := by
    simp only [Draws.check, h]
    rfl
  have hsample : (Draws.twister seed).sample config
      = fun feasible degrees ↦ sampleWith config feasible Twister.source (.ofSeed n) degrees := by
    funext feasible degrees
    simp only [Draws.sample, Draws.sampleSeeded, h]
  rw [realize, hcheck, hsample, realizeFrom]

end DegreeGraph
