/-!
# Bits of bytes

A packed stream is read bit by bit. Some formats take the lowest bit of a byte first, and others the highest;
a number of several bits is read in the same direction.

A stream that is being unpacked holds the bits that are left and the bytes that were written so far. A step on
it may halt, because the bits run out or because they follow no rule; the bytes that were written before then
stay.
-/

namespace DegreeGraph.Packed

/-- The bits of a byte, the lowest first. -/
def lowFirst (b : UInt8) : List Bool := (List.range 8).map b.toNat.testBit

/-- The bits of a byte, the highest first. -/
def highFirst (b : UInt8) : List Bool := (lowFirst b).reverse

/-- The number of some bits, the lowest first. -/
def ofLowFirst : List Bool → Nat
  | [] => 0
  | b :: rest => b.toNat + 2 * ofLowFirst rest

/-- The number of some bits, the highest first. -/
def ofHighFirst (bits : List Bool) : Nat := bits.foldl (fun n b ↦ 2 * n + b.toNat) 0

/-- Why a step on a stream halts. -/
inductive Halt (ε : Type) where
  /-- The stream ends too early. -/
  | cut
  /-- The stream follows no rule. -/
  | broken (trouble : ε)
deriving DecidableEq, Repr

/-- A stream that is being unpacked. -/
structure BitStream where
  /-- The bits that are left. -/
  bits : List Bool
  /-- The bytes that were written. -/
  written : Array UInt8 := #[]

/-- A step on a stream of bits. -/
abbrev BitM (ε : Type) := ExceptT (Halt ε) (StateM BitStream)

namespace BitM

variable {ε : Type}

/-- The stream follows no rule. -/
def fail {α : Type} (trouble : ε) : BitM ε α := throw (.broken trouble)

/-- Some of the bits that are left. -/
def bits (count : Nat) : BitM ε (List Bool) := do
  let s ← get
  let taken := s.bits.take count
  if taken.length < count then throw .cut
  set { s with bits := s.bits.drop count }
  return taken

/-- One bit. -/
def bit : BitM ε Bool := do return (← bits 1).head?.getD false

/-- A number of some bits, the lowest first. -/
def low (count : Nat) : BitM ε Nat := do return ofLowFirst (← bits count)

/-- A number of some bits, the highest first. -/
def high (count : Nat) : BitM ε Nat := do return ofHighFirst (← bits count)

/-- The bits up to the end of a byte are skipped. -/
def align : BitM ε Unit := modify fun s ↦ { s with bits := s.bits.drop (s.bits.length % 8) }

/-- A byte is written. -/
def write (b : UInt8) : BitM ε Unit := modify fun s ↦ { s with written := s.written.push b }

/-- The number of bytes that were written. -/
def size : BitM ε Nat := do return (← get).written.size

end BitM

/-- What unpacking a stream gives: the bytes, and those of the file behind the stream, if the stream is
complete. -/
structure Outcome (ε : Type) where
  bytes : List UInt8
  rest : Except (Halt ε) (List UInt8)

/-- The bytes behind a stream of which some bits are left. -/
def restOf (bytes : List UInt8) (bits : List Bool) : List UInt8 :=
  bytes.drop (bytes.length - bits.length / 8)

/-- The outcome of a step on the stream of some bytes. -/
def unpackBits {ε : Type} (bitsOf : UInt8 → List Bool) (step : BitM ε Unit) (bytes : List UInt8) :
    Outcome ε :=
  let (answer, s) := step.run.run { bits := bytes.flatMap bitsOf }
  ⟨s.written.toList, answer.map fun _ ↦ restOf bytes s.bits⟩

/-- The bytes of an outcome, if nothing goes wrong. -/
def Outcome.answer {ε : Type} (outcome : Outcome ε) : Except (Halt ε) (List UInt8) :=
  outcome.rest.map fun _ ↦ outcome.bytes

/-- What unpacking the streams gives that follow each other in a file. What follows the first one and is no stream
does not count. The first argument is greater than the number of bytes. -/
def unpackEach {ε : Type} (unpack : List UInt8 → Outcome ε) : (fuel : Nat) → List UInt8 → Outcome ε
  | 0, _ => ⟨[], .error .cut⟩
  | fuel + 1, bytes =>
    let outcome := unpack bytes
    match outcome.rest with
    | .error _ | .ok [] => outcome
    | .ok rest =>
      let later := unpackEach unpack fuel rest
      match later.rest with
      | .error (.broken _) => ⟨outcome.bytes, .ok []⟩
      | _ => ⟨outcome.bytes ++ later.bytes, later.rest⟩

/-- What unpacking the streams in a file gives. -/
def unpackAll {ε : Type} (unpack : List UInt8 → Outcome ε) (bytes : List UInt8) : Outcome ε :=
  unpackEach unpack (bytes.length + 1) bytes

end DegreeGraph.Packed
