import DegreeGraph.Packed.Bits
import DegreeGraph.Packed.Medium
import DegreeGraph.Packed.Tape.Records

/-!
# Reading tape archives

An archive is read from a source, which may be a file, or a packed file that can be unpacked up to some place
only. While the headers are read, the place in the source moves on. A place where the next member should begin is
kept, and so are the fields for all headers that follow. Both stay as they are when reading stops.
-/

namespace DegreeGraph.Packed.Tape

/-- What an archive is read from. -/
structure Source where
  medium : Medium
  bytes : List UInt8
  /-- What goes wrong where the bytes end. -/
  fault : Option Fault

namespace Source

/-- Some bytes from a place on, nothing standing for all; there are fewer if the source ends before. -/
def read (source : Source) (place : Nat) (count : Option Nat) : Except Fault (List UInt8) :=
  let rest := source.bytes.drop place
  match source.fault, count with
  | some fault, some n => if rest.length < n then .error fault else .ok (rest.take n)
  | none, some n => .ok (rest.take n)
  | _, none => .ok rest

/-- The number of bytes that are unpacked at once. -/
def unpackedAtOnce : Nat := 8192

/-- A source in a file that is packed in some way. Of what is unpacked at once, nothing is there if something is
broken in it. -/
def ofPacked {ε : Type} (fault : ε → Fault) (outcome : Outcome ε) : Source :=
  match outcome.rest with
  | .ok _ => ⟨.stream, outcome.bytes, none⟩
  | .error .cut => ⟨.stream, outcome.bytes, some .streamEnded⟩
  | .error (.broken trouble) =>
    let whole := outcome.bytes.length / unpackedAtOnce * unpackedAtOnce
    ⟨.stream, outcome.bytes.take whole, some (fault trouble)⟩

end Source

/-- How far an archive is read. -/
structure Reading where
  place : Nat := 0
  /-- The place where the next member should begin. -/
  next : Int := 0
  /-- The fields for all headers that follow. -/
  common : Fields := []

/-- A step on an archive that is read. -/
abbrev TapeM := ReaderT Source (ExceptT Stop (StateM Reading))

namespace TapeM

/-- An answer as a step that reads nothing. -/
def ofAnswer {α : Type} (answer : Except Fault α) : TapeM α :=
  match answer with
  | .ok a => pure a
  | .error fault => throw (.failed fault)

/-- What some bytes tell, as a step that reads nothing. -/
def ofBytes {α : Type} (answer : Except Stop α) : TapeM α :=
  match answer with
  | .ok a => pure a
  | .error stop => throw stop

/-- Some bytes from the place on; there are fewer if the archive ends before. -/
def bytes (count : Int) : TapeM (List UInt8) := do
  let source ← read
  let count ← ofAnswer (source.medium.length? count)
  match source.read (← get).place count with
  | .ok taken =>
    modify fun r ↦ { r with place := r.place + taken.length }
    return taken
  | .error fault => throw (.ended fault)

/-- The place moves. -/
def moveTo (place : Int) : TapeM Unit := do
  let place ← ofAnswer ((← read).medium.reach place)
  modify fun r ↦ { r with place }

/-- The next member should begin at a place. -/
def setNext (next : Int) : TapeM Unit := modify fun r ↦ { r with next }

/-- A step on what has to follow a header. -/
def following {α : Type} (step : TapeM α) : TapeM α :=
  tryCatch step fun
    | .header trouble => throw (.later trouble)
    | stop => throw stop

end TapeM

end DegreeGraph.Packed.Tape
