import DegreeGraph.Packed.Tape.Source

/-!
# The bytes of members

The bytes of a member stand behind its header, as a whole or in spans. A member is then laid out as parts: spans, and
the holes between and behind them, which are zeros. Parts may overlap; of those that hold a place, the first
one counts that is met from the part on that was read last, the parts being taken in a circle.
-/

namespace DegreeGraph.Packed.Tape

/-- A part of a member: where it begins and ends in the member, and where its bytes are in the archive unless it is
a hole. -/
structure Part where
  start : Int
  stop : Int
  place : Option Int
deriving DecidableEq, Repr

/-- A part holds a place of the member. -/
def Part.holds (p : Part) (position : Int) : Bool := p.start ≤ position && position < p.stop

/-- A hole between two places of a member. -/
def holeBetween (start stop : Int) : List Part := if start < stop then [⟨start, stop, none⟩] else []

/-- The parts of a member of some size behind a place that is reached, where the bytes of the next span are at a place
in the archive. -/
def partsOf (size : Int) : (reached place : Int) → List Span → List Part
  | reached, _, [] => holeBetween reached size
  | reached, place, span :: rest =>
    let stop := span.offset + span.size
    holeBetween reached span.offset ++ ⟨span.offset, stop, some place⟩ :: partsOf size stop (place + span.size) rest

/-- The parts from the first one on that holds a place, the others behind them. -/
def turnTo (position : Int) (parts : List Part) : List Part :=
  let others := parts.takeWhile fun p ↦ !p.holds position
  parts.drop others.length ++ others

/-- Some bytes of a source, all of which have to be there. -/
def Source.readWhole (source : Source) (place : Int) (count : Nat) : Except Fault (List UInt8) := do
  let bytes ← source.read (← source.medium.reach place) (some count)
  if bytes.length < count then throw (.badTape .data)
  return bytes

/-- The bytes that are missing of a member from a place in it on. -/
def Source.readParts (source : Source) (parts : List Part) (position : Int) (missing : Nat) :
    Except Fault (List UInt8) := do
  let parts := turnTo position parts
  match parts with
  | [] => return []
  | p :: _ =>
    let count := min missing (p.stop - position).toNat
    if _h : 0 < count then
      let bytes ← match p.place with
        | some place => source.readWhole (place + (position - p.start)) count
        | none => pure (List.replicate count 0)
      let later ← source.readParts parts (position + count) (missing - count)
      return bytes ++ later
    else return []
termination_by missing
decreasing_by omega

end DegreeGraph.Packed.Tape
