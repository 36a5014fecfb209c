import DegreeGraph.Datum.Order

/-!
# Settings

One record holds everything that can be tuned: the search, the choice of the feasibility test, the
seed, and how a graph is laid out in a store. Nothing is validated when the record is made; each part
of the library takes from it the view that it needs.
-/

namespace DegreeGraph

/-- Everything that can be tuned, as it was given. -/
structure Config where
  /-- How many partners may be drawn for one pivot; null for any number. -/
  budget : Datum := .int 100000
  /-- How many runs may be abandoned. -/
  restarts : Datum := .int 3
  /-- Refuse a partner without demand before the feasibility test sees it. -/
  skipSpent : Datum := .bool true
  /-- The name of the feasibility test. -/
  test : Datum := .text "erdos_gallai"
  /-- The seed of the draws; null for draws without one. -/
  seed : Datum := .null
  /-- The label of the nodes of a store. -/
  nodeLabel : Datum := .text "Node"
  /-- The property that holds the key of a node. -/
  keyProperty : Datum := .text "name"
  /-- The type of the links of a store. -/
  relationship : Datum := .text "relto"
  /-- Nodes without demand are put into a store as well. -/
  isolatedNodes : Datum := .bool false
deriving Inhabited

namespace Config

/-- The name by which a record of settings is reported. -/
def constructorName : String := "GeneratorConfig.__init__()"

/-- The settings under their names. -/
def fields (c : Config) : List (String × Datum) :=
  [("max_attempts_per_edge", c.budget), ("max_restarts", c.restarts),
    ("skip_exhausted_candidates", c.skipSpent), ("feasibility_test", c.test), ("seed", c.seed),
    ("node_label", c.nodeLabel), ("key_property", c.keyProperty),
    ("relationship_type", c.relationship), ("materialize_isolated_nodes", c.isolatedNodes)]

/-- The settings with another value under a name. -/
def replaceOne (c : Config) (name : String) (value : Datum) : Except Fault Config :=
  match name with
  | "max_attempts_per_edge" => .ok { c with budget := value }
  | "max_restarts" => .ok { c with restarts := value }
  | "skip_exhausted_candidates" => .ok { c with skipSpent := value }
  | "feasibility_test" => .ok { c with test := value }
  | "seed" => .ok { c with seed := value }
  | "node_label" => .ok { c with nodeLabel := value }
  | "key_property" => .ok { c with keyProperty := value }
  | "relationship_type" => .ok { c with relationship := value }
  | "materialize_isolated_nodes" => .ok { c with isolatedNodes := value }
  | _ => .error (.unknownArgument constructorName name)

/-- The settings with other values under names. -/
def replace (c : Config) : List (String × Datum) → Except Fault Config
  | [] => .ok c
  | (name, value) :: rest => do (← c.replaceOne name value).replace rest

/-- The settings with given values, all others at their defaults. -/
def ofFields (given : List (String × Datum)) : Except Fault Config := ({} : Config).replace given

/-- An assignment to a setting, which is always refused. -/
def assign (_ : Config) (name : String) : Except Fault Config := .error (.frozenSetting name)

/-- Every setting has its default value. -/
def isDefault (c : Config) : Bool := Datum.sameFields c.fields ({} : Config).fields

end Config

end DegreeGraph
