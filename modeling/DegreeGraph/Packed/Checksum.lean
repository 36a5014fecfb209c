/-!
# Checksums of 32 bits

The checksum of some bytes is a remainder: the bytes are the coefficients of a polynomial that is divided by a fixed
one, two coefficients of which are the same if their sum is even. Formats differ in the end of a byte from
which they start, and accordingly in the end of the remainder.
-/

namespace DegreeGraph.Packed

/-- The fixed polynomial without its first term, the coefficient of the highest power first. -/
def divisor : UInt32 := 0x04C11DB7

/-- The fixed polynomial without its first term, the coefficient of the highest power last. -/
def divisorReversed : UInt32 := 0xEDB88320

/-- A remainder after one coefficient more, where the highest power comes first. -/
def shiftUp (r : UInt32) : UInt32 :=
  if r &&& 0x80000000 = 0 then r <<< 1 else (r <<< 1) ^^^ divisor

/-- A remainder after one coefficient more, where the highest power comes last. -/
def shiftDown (r : UInt32) : UInt32 :=
  if r &&& 1 = 0 then r >>> 1 else (r >>> 1) ^^^ divisorReversed

/-- A remainder after a byte more whose highest bit comes first. -/
def addHighFirst (r : UInt32) (b : UInt8) : UInt32 :=
  (List.range 8).foldl (fun s _ ↦ shiftUp s) (r ^^^ (b.toUInt32 <<< 24))

/-- A remainder after a byte more whose lowest bit comes first. -/
def addLowFirst (r : UInt32) (b : UInt8) : UInt32 :=
  (List.range 8).foldl (fun s _ ↦ shiftDown s) (r ^^^ b.toUInt32)

/-- The checksum that starts from the highest bit of a byte. -/
def checksumHighFirst (bytes : List UInt8) : UInt32 := ~~~ bytes.foldl addHighFirst 0xFFFFFFFF

/-- The checksum that starts from the lowest bit of a byte. -/
def checksumLowFirst (bytes : List UInt8) : UInt32 := ~~~ bytes.foldl addLowFirst 0xFFFFFFFF

end DegreeGraph.Packed
