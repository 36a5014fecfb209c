import DegreeGraph.Command.Option

/-!
# Arguments of a command

A command takes options and one positional argument: a single value, any number of values, or the name of
a subcommand with everything behind it. Options and values are taken in turn. The values in front of the
first option fill the positional argument if there are any; once it is filled, further values are left
over. What is left over is reported to the caller, who may know more.
-/

namespace DegreeGraph

open DegreeGraph.Text

/-- The positional argument of a command. -/
inductive Positional where
  /-- One value. -/
  | single (title field : String) (kind : ValueKind)
  /-- Any number of values. -/
  | many (field : String)
  /-- The name of a subcommand and its arguments. -/
  | command (title : String) (names : List String)
deriving DecidableEq, Repr

/-- The positional argument may be without values. -/
def Positional.isMany : Positional → Bool
  | many _ => true
  | _ => false

/-- What a command takes. -/
structure Grammar where
  /-- The name of the command in messages. -/
  program : String
  options : List OptionSpec
  positional : Positional
deriving DecidableEq, Repr

/-- Why a command line is not carried out. -/
inductive Refusal where
  /-- Help is asked for. -/
  | help (program : String)
  /-- The arguments are wrong. -/
  | misuse (program text : String)
deriving DecidableEq, Repr

/-- What the arguments of a command say. -/
structure Arguments where
  /-- The values by field, the latest first. -/
  values : List (String × Datum) := []
  /-- The values of the positional argument, if it is filled. -/
  words : Option (List String) := none
  /-- What is left over. -/
  extras : List String := []

namespace Arguments

/-- A value for a field. -/
def bind (a : Arguments) (field : String) (d : Datum) : Arguments :=
  { a with values := (field, d) :: a.values }

/-- More that is left over. -/
def leave (a : Arguments) (extras : List String) : Arguments := { a with extras := a.extras ++ extras }

/-- The value of a field. -/
def value? (a : Arguments) (field : String) : Option Datum := a.values.lookup field

end Arguments

namespace Grammar

/-- The arguments are wrong. -/
def misuse {α : Type} (g : Grammar) (text : String) : Except Refusal α :=
  .error (.misuse g.program text)

/-- The value of one argument is wrong. -/
def wrongValue {α : Type} (g : Grammar) (title text : String) : Except Refusal α :=
  g.misuse ("argument " ++ title ++ ": " ++ text)

/-- A value of some kind for an argument. -/
def readValue (g : Grammar) (title : String) (kind : ValueKind) (s : String) :
    Except Refusal Datum :=
  match kind.read s with
  | .ok d => .ok d
  | .error text => g.wrongValue title text

/-! ## Positional arguments -/

/-- The number of tokens that a positional argument takes from the front. -/
def takenBy (tokens : List Token) : Positional → Nat
  | .many _ => (tokens.takeWhile fun t ↦ !t.isOption).length
  | .command _ _ =>
    match tokens.find? (· != .dashes) with
    | some (.word _) => tokens.length
    | _ => 0
  | .single _ _ _ =>
    let dashes := tokens.takeWhile (· == .dashes)
    match tokens.drop dashes.length with
    | .word _ :: rest => dashes.length + 1 + (rest.takeWhile (· == .dashes)).length
    | _ => 0

/-- The arguments with the positional one filled. -/
def fill (g : Grammar) (a : Arguments) (taken : List String) : Except Refusal Arguments :=
  match g.positional with
  | .many _ => .ok { a with words := some (taken.erase "--") }
  | .command title names => do
    match (ValueKind.choice names).read (taken.headD "") with
    | .ok _ => return { a with words := some taken }
    | .error text => g.wrongValue title text
  | .single title field kind => do
    let words := taken.erase "--"
    let d ← g.readValue title kind (words.headD "")
    return { a.bind field d with words := some words }

/-- Fills the positional argument from the front of tokens, unless it is filled or they do not begin with
it, and tells how many were taken. -/
def fillFrom (g : Grammar) (a : Arguments) (tokens : List Token) : Except Refusal (Arguments × Nat) :=
  if a.words.isSome then .ok (a, 0)
  else
    let count := takenBy tokens g.positional
    if count = 0 && !g.positional.isMany then .ok (a, 0)
    else do return (← g.fill a ((tokens.take count).map Token.source), count)

/-! ## Options -/

/-- An option that asks for help has a value, which it does not take. Characters right behind a short name may
be short names as well; the first that is none is refused with all that follows. -/
def helpWith {α : Type} (g : Grammar) (title : String) (isLong : Bool) :
    List Char → Except Refusal α
  | [] => g.wrongValue title ("ignored explicit argument " ++ quote "")
  | c :: rest =>
    if isLong || !(namedOptions g.options).any (·.1 == String.ofList ['-', c]) then
      g.wrongValue title ("ignored explicit argument " ++ quote (String.ofList (c :: rest)))
    else if rest.isEmpty then .error (.help g.program)
    else g.helpWith title isLong rest

/-- The arguments with the value of an option. Two hyphens are no value, not even behind an equals sign; they
leave the option with no values. -/
def setOption (g : Grammar) (a : Arguments) (o : OptionSpec) (kind : ValueKind) (s : String) :
    Except Refusal Arguments :=
  if s == "--" then .ok (a.bind o.field (.list []))
  else do return a.bind o.field (← g.readValue o.title kind s)

/-- The arguments with an option, whose value may be the next token; tells whether it was. -/
def takeOption (g : Grammar) (a : Arguments) (use : OptionUse) (next : Option Token) :
    Except Refusal (Arguments × Bool) :=
  match use.option.kind, use.value, next with
  | some kind, some s, _ => do return (← g.setOption a use.option kind s, false)
  | some kind, none, some (.word s) => do return (← g.setOption a use.option kind s, true)
  | some _, none, _ => g.wrongValue use.option.title "expected one argument"
  | none, none, _ => .error (.help g.program)
  | none, some s, _ => g.helpWith use.option.title (beginsWith use.name "--") s.toList

/-! ## All arguments -/

/-- Takes options and values in turn. -/
def take (g : Grammar) (a : Arguments) (tokens : List Token) : Except Refusal Arguments :=
  match tokens with
  | [] => do
    let (a, _) ← g.fillFrom a []
    return a
  | .option s none :: rest => g.take (a.leave [s]) rest
  | .option _ (some use) :: rest => do
    match ← g.takeOption a use rest.head? with
    | (a, true) => g.take a (rest.drop 1)
    | (a, false) => g.take a rest
  | token :: rest => do
    let (a, count) ← g.fillFrom a (token :: rest)
    if count = 0 then
      let unplaced := (token :: rest).takeWhile fun t ↦ !t.isOption
      g.take (a.leave (token.source :: unplaced.tail.map Token.source))
        (rest.drop (unplaced.length - 1))
    else g.take a (rest.drop (count - 1))
termination_by tokens.length

/-- The positional argument must be filled. -/
def requireWords (g : Grammar) (a : Arguments) : Except Refusal Arguments :=
  match a.words, g.positional with
  | none, .single title .. => g.misuse ("the following arguments are required: " ++ title)
  | none, .command title _ => g.misuse ("the following arguments are required: " ++ title)
  | _, _ => .ok a

/-- What the arguments of a command say. -/
def read (g : Grammar) (arguments : List String) : Except Refusal Arguments :=
  match tokensOf g.options arguments with
  | .error text => g.misuse text
  | .ok tokens => do g.requireWords (← g.take {} tokens)

end Grammar

end DegreeGraph
