import DegreeGraph.Event
import DegreeGraph.Figure.Chart
import DegreeGraph.Figure.Drawing
import DegreeGraph.Files.Tree

/-!
# Figures in files

A figure is saved for a path, whose folder is made if it is missing. The file is the business of a renderer: what it
holds, whether the path has an ending for which there is a format, and where the file goes if it has none. A
renderer is any step on the files, and may fail; here only the contents of the figure are settled.
-/

namespace DegreeGraph

/-- A figure. -/
inductive Figure where
  | chart (chart : Chart)
  | drawing (drawing : Drawing)

namespace Figure

/-- The title of a figure. -/
def title : Figure → String
  | chart c => c.title
  | drawing d => d.title

/-- What a report calls a figure. -/
def reportName : Figure → String
  | chart _ => "Degree comparison"
  | drawing _ => "Realization"

/-- The part that reports on figures. -/
def reporter : String := "graphgen.viz.figures"

/-- The report on a figure. -/
def savedEvent (f : Figure) (path : String) : Event :=
  ⟨.info, reporter, f.reportName ++ " figure written: " ++ path⟩

end Figure

/-- What writes the files of figures. -/
structure Renderer where
  /-- Writes the file of a figure for a path, whose folder is there. -/
  write : Figure → String → FileM Unit

/-- The renderer that writes a text at every path as it stands. -/
def Renderer.verbatim (text : Figure → String) : Renderer := ⟨fun f path ↦ FileM.write path (text f)⟩

instance : Coe (Figure → String) Renderer := ⟨Renderer.verbatim⟩

namespace Figure

/-- Saves a figure for a path and answers the place of the path. -/
def save (f : Figure) (renderer : Renderer) (path : String) : FileM Place := do
  FileM.makeFolderOf path
  renderer.write f path
  return Place.resolve (← get).work path

/-- Saves a figure for what should be a path and answers the place of the path. -/
def saveAt (f : Figure) (renderer : Renderer) (path : Datum) : FileM Place :=
  match path with
  | .text path => f.save renderer path
  | d => throw (.notPath d.kind)

end Figure

end DegreeGraph
