import DegreeGraph.Edge.Listing
import DegreeGraph.Event
import DegreeGraph.Files.Tree

/-!
# Edge lists in files

An edge list is first written beside its destination and then moved there, so that a reader never sees half
of it. Edges that cannot be sorted are refused before any file is touched. The lines are written one after
the other, and an edge that has no line leaves those before it in the file beside the destination.
-/

namespace DegreeGraph

/-- The path beside a destination. -/
def besidePath (path : String) : String := path ++ ".tmp"

/-- The part that reports on written edge lists. -/
def writingReporter : String := "graphgen.graph.materialize"

/-- The report on a written edge list. -/
def writtenEvent (count : Nat) (path : String) : Event :=
  ⟨.info, writingReporter, "Wrote " ++ toString count ++ " edges to " ++ path⟩

/-- The lines of edges are added to an open file one by one. -/
def appendLines (place : Place) : List Ends → FileM Unit
  | [] => pure ()
  | ends :: rest => do
    FileM.append place (← FileM.ofAnswer (edgeLine ends))
    appendLines place rest

/-- Writes the list of a collection of edges to a path and answers the report. -/
def writeEdgeList (edges : Datum) (path : String) : FileM Event := do
  let ends ← FileM.ofAnswer (sortedEnds edges)
  FileM.makeFolderOf path
  let place ← FileM.create (besidePath path)
  FileM.append place listingHeader
  appendLines place ends
  FileM.move (besidePath path) path
  return writtenEvent ends.length path

/-- Writes the list of a collection of edges to what should be a path and answers the report. -/
def writeEdgeListAt (edges path : Datum) : FileM Event :=
  match path, sortedEnds edges with
  | .text path, _ => writeEdgeList edges path
  | _, .error fault => throw fault
  | d, .ok _ => throw (.notPath d.kind)

end DegreeGraph
