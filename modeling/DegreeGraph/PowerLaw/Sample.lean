import DegreeGraph.Datum.Order
import DegreeGraph.Degrees.ErdosGallai
import DegreeGraph.Event
import DegreeGraph.Number.FixedPlaces
import DegreeGraph.PowerLaw.Variates
import DegreeGraph.Total

/-!
# Degree sequences with a heavy tail

Variates with a power law are scaled, cut to whole degrees and held between the least degree and the cap.
If the sum is odd, one entry is raised by one, or lowered if it has reached the cap. A candidate that is
graphical is the answer; otherwise the next one is drawn, as often as is allowed.

The cap is one less than the number of nodes, or the greatest degree that is allowed if that is less.
-/

namespace DegreeGraph

open DegreeGraph.Number

universe u

variable {σ : Type u}

/-- What a sample is asked for, as it was given. -/
structure PowerLaw where
  /-- The number of nodes. -/
  count : Datum
  /-- The exponent of the law. -/
  exponent : Datum := .float 2.5
  /-- The seed of the draws. -/
  seed : Datum := .null
  /-- The least degree. -/
  least : Datum := .int 1
  /-- The greatest degree that is allowed; null for none. -/
  greatest : Datum := .null
  /-- How many candidates may be drawn. -/
  attempts : Datum := .int 1000
deriving Inhabited

namespace PowerLaw

/-! ## What is asked for -/

/-- The name by which a sample is reported that is asked for with other arguments than it has. -/
def callName : String := "powerlaw_degree_sequence()"

/-- What is asked for, with another value under a name. -/
def replaceOne (p : PowerLaw) (name : String) (value : Datum) : Except Fault PowerLaw :=
  match name with
  | "n" => .ok { p with count := value }
  | "gamma" => .ok { p with exponent := value }
  | "seed" => .ok { p with seed := value }
  | "min_degree" => .ok { p with least := value }
  | "max_degree" => .ok { p with greatest := value }
  | "max_attempts" => .ok { p with attempts := value }
  | _ => .error (.unknownArgument callName name)

/-- What is asked for, with other values under names. -/
def replace (p : PowerLaw) : List (String × Datum) → Except Fault PowerLaw
  | [] => .ok p
  | (name, value) :: rest => do (← p.replaceOne name value).replace rest

/-- What arguments ask for; a number of nodes must be among them. -/
def ofArguments (given : List (String × Datum)) : Except Fault PowerLaw := do
  let p ← ({ count := .null } : PowerLaw).replace given
  if (given.lookup "n").isSome then return p
  else throw (.missingArguments callName ["n"])

/-- One less than the number of nodes. -/
def last (p : PowerLaw) : Datum :=
  match p.count with
  | .float x => .float (x - 1.0)
  | d => .int (d.toInt?.getD 0 - 1)

/-- There are no nodes. -/
def isEmpty (p : PowerLaw) : Bool := p.count.same (.int 0)

/-- The last of the nodes, if their number is an integer. -/
def lastNode? (p : PowerLaw) : Option Nat := p.count.toInt?.map fun z ↦ (z - 1).toNat

/-- The bound on the degrees of a candidate: what is allowed, or what is possible if that is less. -/
def cap (p : PowerLaw) : Except Fault Datum :=
  match p.greatest with
  | .null => .ok p.last
  | g => do return if ← p.last.related .less g then p.last else g

/-- The bound on the degrees of a candidate, once it is known to be there. -/
def bound (p : PowerLaw) : Datum := (p.cap.toOption).getD p.last

/-- The least degree of a candidate. -/
def leastDegree (p : PowerLaw) : Int := p.least.floor?.getD 0

/-- The greatest degree of a candidate. -/
def greatestDegree (p : PowerLaw) : Int := p.bound.floor?.getD 0

/-- The bound that a degree has to be below to be raised. -/
def raisedBelow (p : PowerLaw) : Int := p.bound.ceiling?.getD 0

/-- The factor of the variates. -/
def scale (p : PowerLaw) : Float :=
  match p.least.related .less (.int 1) with
  | .ok false => p.least.toFloat
  | _ => 1.0

/-- A number in double precision, unless it is an integer beyond all doubles. -/
def inDouble (d : Datum) : Except Fault Float :=
  match d with
  | .float x => .ok x
  | d => match finiteToInt? (d.toInt?.getD 0) with
    | some x => .ok x
    | none => .error .oversizedForDouble

/-- The shape of the variates. -/
def shape (p : PowerLaw) : Except Fault Float :=
  match p.exponent with
  | .float x => .ok (x - 1.0)
  | d => inDouble (.int (d.toInt?.getD 0 - 1))

/-- Why a sample cannot be drawn. -/
def check (p : PowerLaw) : Except Fault Unit := do
  if ← p.count.related .less (.int 0) then throw (.negativeCount p.count)
  if ← p.exponent.related .atMost (.int 1) then throw (.flatExponent p.exponent)
  if !p.isEmpty then
    let cap ← p.cap
    if (← p.least.related .less (.int 0)) || (← p.least.related .greater cap) then
      throw (.leastDegreeOutOfRange cap p.least)

/-! ## Candidates -/

/-- What stands for the degree of a variate that is no number; no candidate that holds it is graphical. -/
def noDegree : Int := -(twoTo 63 : Nat)

/-- The degree for a variate. -/
def degree (p : PowerLaw) (x : Float) : Int :=
  if x.isNaN then noDegree
  else floorBetween p.leastDegree p.greatestDegree ((x + 1.0) * p.scale)

/-- Degrees with the one at a place raised, or lowered if it has reached a bound. -/
def mend (bound : Int) (degrees : List Int) (place : Nat) : List Int :=
  degrees.modify place fun d ↦ if d < bound then d + 1 else d - 1

/-- What a sample asks of its source. -/
inductive Call where
  /-- A source for a seed. -/
  | source (seed : Datum)
  /-- A batch of variates, as many as there are nodes. -/
  | batch (shape : Float) (size : Datum)
  /-- A place among the nodes. -/
  | place (bound : Datum)
deriving Inhabited

/-- A candidate, what was asked for it, and the state of the source afterwards. -/
structure Candidate (σ : Type u) where
  degrees : List Int
  calls : List Call
  state : σ

/-- The next candidate for `last + 1` nodes from variates of some shape. -/
def candidate (p : PowerLaw) (source : Variates σ) (shape : Float) (last : Nat) (state : σ) :
    Candidate σ :=
  let (xs, state) := source.batch state shape (last + 1)
  let degrees := xs.val.map p.degree
  let asked := [.batch shape p.count]
  if total degrees % 2 = 0 then ⟨degrees, asked, state⟩
  else
    let (place, state) := source.place state last
    ⟨mend p.raisedBelow degrees place, asked ++ [.place p.count], state⟩

/-! ## Samples -/

/-- What a sample came to. -/
structure Sample where
  /-- What was asked of the source, in order. -/
  calls : List Call
  /-- What was reported, in order. -/
  events : List Event
  /-- The degrees or the cause of the failure. -/
  answer : Except Fault (List Int)

/-- A failure before anything more is asked of the source. -/
def Sample.failed (fault : Fault) : Sample := ⟨[], [], .error fault⟩

/-- The part that reports on samples. -/
def reporter : String := "graphgen.sequences"

/-- The report on a sample, which shows the exponent in double precision. -/
def acceptedEvent (attempt : Nat) (degrees : List Int) (exponent : Float) : Event :=
  ⟨.debug, reporter,
    "Power-law sequence (n=" ++ toString degrees.length ++ ", gamma=" ++ writeFixed 2 exponent
      ++ ") accepted on attempt " ++ toString attempt ++ ", max degree "
      ++ writeInt (degrees.foldl max (degrees.headD 0)) ++ "."⟩

/-- The sample that a candidate is on an attempt. -/
def accepted (p : PowerLaw) (attempt : Nat) (c : Candidate σ) : Sample :=
  match inDouble p.exponent with
  | .ok x => ⟨c.calls, [acceptedEvent attempt c.degrees x], .ok c.degrees⟩
  | .error fault => ⟨c.calls, [], .error fault⟩

/-- Draws candidates until one is graphical, `tries` more of them at most. -/
def draw (p : PowerLaw) (source : Variates σ) (shape : Float) (last : Nat) :
    (attempt tries : Nat) → σ → Sample
  | _, 0, _ => .failed (.noSample p.attempts p.count p.exponent)
  | attempt, tries + 1, state =>
    let c := p.candidate source shape last state
    if ErdosGallai.passes c.degrees then p.accepted attempt c
    else
      let later := p.draw source shape last (attempt + 1) tries c.state
      { later with calls := c.calls ++ later.calls }

/-- Draws `tries` candidates at most. A shape beyond all doubles, and then a number of nodes that is no integer,
fail with the first of them. -/
def drawSome (p : PowerLaw) (source : Variates σ) (tries : Nat) (state : σ) : Sample :=
  match tries, p.shape, p.lastNode? with
  | 0, _, _ => .failed (.noSample p.attempts p.count p.exponent)
  | _, .error fault, _ => .failed fault
  | _, .ok shape, none => ⟨[.batch shape p.count], [], .error (.notInteger p.count.kind)⟩
  | tries, .ok shape, some last => p.draw source shape last 1 tries state

/-- The number of candidates that may be drawn, which is asked for once there is a source. -/
def tries (p : PowerLaw) : Except Fault Nat :=
  match p.attempts, p.attempts.toInt? with
  | _, some most => .ok most.toNat
  | .float _, none => .error (.notInteger .float)
  | d, none => .error (.notSummand d.kind)

/-- A sample, from the state in which a source starts, unless it is refused. -/
def sampleStarting (p : PowerLaw) (source : Variates σ) (start : Except Fault σ) : Sample :=
  match p.check with
  | .error fault => .failed fault
  | .ok _ =>
    if p.isEmpty then ⟨[], [], .ok []⟩
    else match start with
      | .error fault => ⟨[.source p.seed], [], .error fault⟩
      | .ok state => match p.tries with
        | .error fault => ⟨[.source p.seed], [], .error fault⟩
        | .ok tries =>
          let drawn := p.drawSome source tries state
          { drawn with calls := .source p.seed :: drawn.calls }

/-- A sample, from a state of a source. -/
def sample (p : PowerLaw) (source : Variates σ) (state : σ) : Sample :=
  p.sampleStarting source (.ok state)

end PowerLaw

end DegreeGraph
