import DegreeGraph.Figure.Saved

/-!
# Figures as plain text

The plain text of a figure has its title and then a line for every node: the two degrees of a chart, or the
size of a drawn node and its label if there is one.

## Formats

A path says by its ending in which format its figure is saved, in small letters or capitals. Png stands for a missing
ending and is put behind the path. Formats that a renderer does not know are refused before a file is opened.
-/

namespace DegreeGraph

/-- The line of a node in a chart. -/
def Chart.line (c : Chart) (i : Nat) : String :=
  toString i ++ ": requested " ++ toString (c.requested.getD i 0) ++ ", realized "
    ++ toString (c.realized.getD i 0)

/-- The line of a node in a drawing. -/
def Drawing.line (d : Drawing) (i : Nat) : String :=
  "size " ++ toString (d.nodeSizes.getD i 0) ++ match d.labels[i]? with
    | some label => ": " ++ label
    | none => ""

/-- The lines of the nodes of a figure. -/
def Figure.lines : Figure → List String
  | chart c => (List.range c.count).map c.line
  | drawing d => (List.range d.network.nodes.length).map d.line

/-- A figure as plain text. -/
def Figure.plain (f : Figure) : String :=
  String.join ((f.title :: f.lines).map (· ++ "\n"))

/-! ## Formats -/

/-- The ending of the last name of a path, which is behind its last dot. The dots that a name begins with are not
counted. -/
def endingOf (path : String) : String :=
  let name := ((Place.namesOf path).getLastD "").toList.dropWhile (· == '.')
  if name.contains '.' then String.ofList (name.reverse.takeWhile (· != '.')).reverse else ""

/-- The format of a path without an ending. -/
def usualFormat : String := "png"

/-- Where a figure goes that is saved for a path, and its format. -/
def formatted (path : String) : String × String :=
  if endingOf path == "" then
    let bare := String.ofList (path.toList.reverse.dropWhile (· == '.')).reverse
    (bare ++ "." ++ usualFormat, usualFormat)
  else (path, String.ofList ((endingOf path).toList.map Char.toLower))

/-- The renderer that knows some formats and writes a text in each of them. -/
def Renderer.byEnding (formats : List String) (text : Figure → String) : Renderer where
  write f path := do
    let (path, format) := formatted path
    if formats.contains format then FileM.write path (text f)
    else throw (.raised "ValueError" ("Format " ++ Text.quote format ++ " is not supported (supported formats: "
      ++ ", ".intercalate formats ++ ")"))

end DegreeGraph
