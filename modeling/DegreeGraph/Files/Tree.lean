import DegreeGraph.Fault
import DegreeGraph.Files.Place

/-!
# A tree of files

Files and folders at their places, and the working folder at which relative paths start. The operations
are those that an atomic write needs: making folders, opening a file and adding text to it, and moving a
file over another. Each answers with the new tree or with the trouble, and then the tree is as it was; only
making folders may leave some of them behind. A file is opened first and filled later, so what goes wrong
in between leaves a file with the text so far.

The troubles come in the order in which a path is followed: a name that is too long, a folder that is
missing, a file where a folder is needed; and then what is wrong with the last name.

A tree has no links, so that a path leads where its names say, and nobody else works on it. Permissions
and the room on a disk are left out: text can always be added to a file that is open.
-/

namespace DegreeGraph

/-- Files and folders. -/
structure FileTree where
  /-- Where relative paths start. -/
  work : Place
  /-- The places of the folders, the root excepted. -/
  folders : List Place
  /-- The files with their texts. -/
  files : List (Place × String)
deriving Repr

/-- The greatest length of a name in bytes. -/
def nameLimit : Nat := 255

/-- The greatest length of a path in bytes. -/
def pathLimit : Nat := 4095

namespace FileTree

/-- The folder at which paths with a home mark start. -/
def home : Place := ["root"]

/-- An empty working folder, and an empty home folder. -/
def empty : FileTree := ⟨["work"], [["work"], home], []⟩

/-- A folder is at a place. -/
def isFolder (t : FileTree) (p : Place) : Bool := p.isEmpty || t.folders.contains p

/-- The text of the file at a place. -/
def textAt? (t : FileTree) (p : Place) : Option String := t.files.lookup p

/-- A text becomes the file at a place. -/
def put (t : FileTree) (p : Place) (text : String) : FileTree :=
  { t with files := (p, text) :: t.files.filter (·.1 != p) }

/-- Text is added to the file at a place. -/
def extend (t : FileTree) (p : Place) (text : String) : FileTree :=
  t.put p ((t.textAt? p).getD "" ++ text)

/-- The file at a place goes away. -/
def remove (t : FileTree) (p : Place) : FileTree :=
  { t with files := t.files.filter (·.1 != p) }

/-! ## Following a path -/

/-- The folder that a name leads to from a folder. -/
def enter (t : FileTree) (p : Place) (name : String) : Except FileTrouble Place :=
  if name == "" || name == "." then .ok p
  else if name == ".." then .ok p.dropLast
  else if nameLimit < name.utf8ByteSize then .error .nameTooLong
  else if t.isFolder (p ++ [name]) then .ok (p ++ [name])
  else if (t.textAt? (p ++ [name])).isSome then .error .notFolder
  else .error .missing

/-- The folder that names lead to from a folder. -/
def walk (t : FileTree) (p : Place) : List String → Except FileTrouble Place
  | [] => .ok p
  | name :: rest => do t.walk (← t.enter p name) rest

/-- The last name of a path and the folder that holds it. -/
structure Target where
  folder : Place
  name : String
  /-- The path ends with a slash. -/
  trailing : Bool

/-- The place of a target. -/
def Target.place (target : Target) : Place := target.folder ++ [target.name]

/-- The target is its own folder or the one above it. -/
def Target.isDots (target : Target) : Bool :=
  target.name == "" || target.name == "." || target.name == ".."

/-- The names of a path without empty ones at its end. -/
def trimmedNames (path : String) : List String :=
  ((Place.namesOf path).reverse.dropWhile (· == "")).reverse

/-- The target of a path whose last name may be too long. -/
def locateAny (t : FileTree) (path : String) : Except FileTrouble Target :=
  if path == "" then .error .missing
  else if pathLimit < path.utf8ByteSize then .error .nameTooLong
  else do
    let names := trimmedNames path
    let folder ← t.walk (Place.startOf t.work path) names.dropLast
    return ⟨folder, names.getLastD "", path.toList.getLast? == some '/'⟩

/-- The last name of a target is not too long. -/
def Target.check (target : Target) : Except FileTrouble Unit :=
  if nameLimit < target.name.utf8ByteSize then .error .nameTooLong else .ok ()

/-- The target of a path. -/
def locate (t : FileTree) (path : String) : Except FileTrouble Target := do
  let target ← t.locateAny path
  target.check
  return target

/-! ## Operations -/

/-- The text of a file. -/
def readFile (t : FileTree) (path : String) : Except FileTrouble String := do
  let target ← t.locate path
  if target.isDots || t.isFolder target.place then .error .isFolder
  else match t.textAt? target.place with
    | none => .error .missing
    | some text => if target.trailing then .error .notFolder else .ok text

/-- The place at which a file can be opened to be written, whether it is there or not. What ends with a slash is
taken for a folder, however long its name is. -/
def placeFor (t : FileTree) (path : String) : Except FileTrouble Place := do
  let target ← t.locateAny path
  if target.isDots || target.trailing then .error .isFolder
  else
    target.check
    if t.isFolder target.place then .error .isFolder else return target.place

/-- A file is moved over another or to where none was. -/
def moveFile (t : FileTree) (source target : String) : Except FileTrouble FileTree := do
  let s ← t.locate source
  let d ← t.locate target
  match t.textAt? s.place with
  | none => .error .missing
  | some text =>
    if d.isDots then .error .busy
    else if d.trailing then .error .notFolder
    else if t.isFolder d.place then .error .isFolder
    else return (t.remove s.place).put d.place text

/-- The folders on the way from a folder along names, made where they are missing; the tree is given back
with the trouble and its place, since some folders may have been made. -/
def makeFolders (t : FileTree) (p : Place) : List String → FileTree × Option (FileTrouble × Place)
  | [] => (t, none)
  | name :: rest =>
    let q := p ++ [name]
    if t.isFolder q then t.makeFolders q rest
    else if nameLimit < name.utf8ByteSize then (t, some (.nameTooLong, q))
    else if (t.textAt? q).isSome then
      (t, some (if rest.isEmpty then (.alreadyThere, q) else (.notFolder, q ++ rest.take 1)))
    else ({ t with folders := t.folders ++ [q] }).makeFolders q rest

/-- The files below the working folder by their relative paths. -/
def listing (t : FileTree) : List (String × String) :=
  t.files.filterMap fun f ↦
    if t.work.isPrefixOf f.1 then some ("/".intercalate (f.1.drop t.work.length), f.2) else none

/-- A file at a relative path, its folders made. -/
def withFile (t : FileTree) (path text : String) : FileTree :=
  let place := Place.resolve t.work path
  ((t.makeFolders [] place.folder).1).put place text

end FileTree

/-! ## Operations as steps -/

/-- A step on a tree of files; the tree stays as the step left it when it fails. -/
abbrev FileM := ExceptT Fault (StateM FileTree)

namespace FileM

/-- A path must not hold the character of code zero. -/
def checkPath (path : String) : FileM Unit :=
  if path.toList.contains '\x00' then throw .zeroInPath else pure ()

/-- An answer as a step that leaves the tree alone. -/
def ofAnswer {α : Type} (answer : Except Fault α) : FileM α :=
  match answer with
  | .ok a => pure a
  | .error fault => throw fault

/-- The text of a file. -/
def read (path : String) : FileM String := do
  checkPath path
  match (← get).readFile path with
  | .ok text => return text
  | .error trouble => throw (.file trouble path none)

/-- A file is opened to be written: it is made, or emptied if it is there. The place of the open file is
answered. -/
def create (path : String) : FileM Place := do
  checkPath path
  match (← get).placeFor path with
  | .ok place =>
    modify (·.put place "")
    return place
  | .error trouble => throw (.file trouble path none)

/-- Text is added to an open file. -/
def append (place : Place) (text : String) : FileM Unit := modify (·.extend place text)

/-- A text is written to a file. -/
def write (path text : String) : FileM Unit := do append (← create path) text

/-- A file is moved. -/
def move (source target : String) : FileM Unit := do
  match (← get).moveFile source target with
  | .ok t => set t
  | .error trouble => throw (.file trouble source (some target))

/-- The folder of a path is made, with the folders on the way. -/
def makeFolderOf (path : String) : FileM Unit := do
  let t ← get
  let folder := (Place.resolve t.work path).folder
  checkPath folder.toPath
  let (t, trouble) := t.makeFolders [] folder
  set t
  match trouble with
  | none => return
  | some (trouble, place) => throw (.file trouble place.toPath none)

end FileM

end DegreeGraph
