/-!
# Events

What happens along the way is recorded as events, in order. An event has a level, the name of the part
that reports it, and a text. A reader chooses a least level and sees the events from there on.
-/

namespace DegreeGraph

/-- How much an event matters. -/
inductive Level where
  | debug
  | info
  | warning
  | error
deriving DecidableEq, Repr

namespace Level

/-- The name of a level. -/
def name : Level → String
  | debug => "DEBUG"
  | info => "INFO"
  | warning => "WARNING"
  | error => "ERROR"

/-- The levels from the least to the greatest. -/
def all : List Level := [debug, info, warning, error]

/-- The place of a level among all. -/
def rank : Level → Nat
  | debug => 0
  | info => 1
  | warning => 2
  | error => 3

/-- The level of a name. -/
def ofName? (name : String) : Option Level := all.find? fun l ↦ l.name == name

end Level

/-- Something that happened. -/
structure Event where
  level : Level
  reporter : String
  text : String
deriving DecidableEq, Repr

/-- The events of a least level, in order. -/
def eventsFrom (least : Level) (events : List Event) : List Event :=
  events.filter fun e ↦ least.rank ≤ e.level.rank

end DegreeGraph
