import DegreeGraph.Packed.Tape
import DegreeGraph.Packed.Zip

/-!
# Packed files

The ending of a path says how its file is packed, in letters of any case. An archive has to hold one file alone,
which may be named anyhow. An empty file that should be in the gzip format is taken for an empty text, and no text
is in that format; there is nothing that unpacks a file in the format of the last ending.
-/

namespace DegreeGraph

open DegreeGraph.Packed DegreeGraph.Text

/-- The ways to pack a file. -/
inductive Packing where
  | tape
  | gzip
  | bzip
  | zip
  | lzma
  | zstandard
deriving DecidableEq, Repr

namespace Packing

/-- The endings of paths; an earlier one counts before a later one. -/
def endings : List (String × Packing) :=
  [(".tar", tape), (".tar.gz", tape), (".tar.bz2", tape), (".tar.xz", tape), (".gz", gzip),
    (".bz2", bzip), (".zip", zip), (".xz", lzma), (".zst", zstandard)]

/-- The packing that a path tells. -/
def ofPath? (path : String) : Option Packing :=
  let s := path.toList.map Char.toLower
  (endings.find? fun e ↦ e.1.toList.isSuffixOf s).map Prod.snd

/-- The fault of a stream that halts. -/
def faultOf {ε : Type} (fault : ε → Fault) : Halt ε → Fault
  | .cut => .streamEnded
  | .broken trouble => fault trouble

/-- The bytes that are packed in a file that was read from a path. -/
def unpack (medium : Medium) (path : String) (bytes : List UInt8) : Packing → Except Fault (List UInt8)
  | tape => Tape.unpack medium path bytes
  | gzip => if bytes.isEmpty then .ok [] else .error (.notGzip (bytes.take 2))
  | bzip => (unpackAll Bzip.unpack bytes).answer.mapError (faultOf fun _ ↦ .brokenStream)
  | zip => Zip.unpack medium path bytes
  | lzma => (unpackAll Lzma.unpack bytes).answer.mapError (faultOf .badLzma)
  | zstandard => .error (.noPackage "zstandard")

end Packing

/-- There is something that unpacks a file at a path. -/
def checkUnpacker (path : String) : Except Fault Unit :=
  if Packing.ofPath? path = some .zstandard then .error (.noPackage "zstandard") else .ok ()

end DegreeGraph
