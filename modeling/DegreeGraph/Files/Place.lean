import DegreeGraph.Text.Pieces

/-!
# Places and paths

A place is the list of names that leads to it from the root. A path is a text: its names stand between
slashes, it starts at the root if it begins with a slash and at a working folder otherwise, `.` stays and
`..` goes back.

`resolve` follows a path by its text alone. What is really there may differ: a path through a folder that
does not exist leads nowhere, even if it goes back out of it.
-/

namespace DegreeGraph

open DegreeGraph.Text

/-- The names on the way from the root. -/
abbrev Place := List String

namespace Place

/-- The names of a path, empty ones included. -/
def namesOf (path : String) : List String :=
  (piecesBetween '/' path.toList).map String.ofList

/-- A path starts at the root. -/
def isAbsolute (path : String) : Bool := path.toList.head? == some '/'

/-- The place where a path starts. -/
def startOf (work : Place) (path : String) : Place := if isAbsolute path then [] else work

/-- One name further, by the text alone. -/
def step (place : Place) (name : String) : Place :=
  if name == "" || name == "." then place
  else if name == ".." then place.dropLast
  else place ++ [name]

/-- The place that a path leads to by its text alone. -/
def resolve (work : Place) (path : String) : Place :=
  (namesOf path).foldl step (startOf work path)

/-- The path of a place from the root. -/
def toPath (place : Place) : String := "/" ++ "/".intercalate place

/-- The names of the folder of a place. -/
def folder (place : Place) : Place := place.dropLast

/-- The path from one place to another. -/
def relativePath : (start target : Place) → String
  | [], [] => "."
  | [], target => "/".intercalate target
  | start, [] => "/".intercalate (start.map fun _ ↦ "..")
  | a :: start, b :: target =>
    if a == b then relativePath start target
    else "/".intercalate ((a :: start).map (fun _ ↦ "..") ++ b :: target)

end Place

end DegreeGraph
