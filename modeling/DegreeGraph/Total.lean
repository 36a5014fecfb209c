/-!
# Totals

The total of a list is what its entries add up to, from the last one on. `total_cons` says what an entry
adds.
-/

namespace DegreeGraph

universe u

variable {α : Type u} [Add α] [OfNat α 0]

/-- The sum of the entries of a list. -/
def total (xs : List α) : α := xs.foldr (· + ·) 0

@[simp] theorem total_nil : total ([] : List α) = 0 := rfl

@[simp] theorem total_cons (x : α) (xs : List α) : total (x :: xs) = x + total xs := rfl

end DegreeGraph
