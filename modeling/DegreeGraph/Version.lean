/-!
# The version of the library
-/

namespace DegreeGraph

/-- The version. -/
def version : String := "0.1.0"

end DegreeGraph
