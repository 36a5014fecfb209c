/-!
# Powers of two and of ten

The scales of binary and of decimal numbers. A power of two is a shifted one, so it is found at once, however
large its exponent is.
-/

namespace DegreeGraph.Number

/-- A power of two. -/
def twoTo (k : Nat) : Nat := 1 <<< k

/-- A power of ten. -/
def tenTo (k : Nat) : Nat := Nat.pow 10 k

end DegreeGraph.Number
