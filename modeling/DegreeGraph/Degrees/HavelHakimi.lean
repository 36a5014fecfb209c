import DegreeGraph.Degrees.ErdosGallai

/-!
# The Havel–Hakimi test

The largest degree `d` is removed and the next `d` largest are lowered by one; zeros are dropped. The
sequence belongs to a simple graph exactly if this goes on until nothing is left, that is, if there
are always enough entries to lower. The test shares nothing with the inequalities, so each of the two
checks the other.
-/

namespace DegreeGraph.HavelHakimi

/-- The positive entries from the largest to the smallest. -/
def demands (degrees : List Int) : List Int := descending (degrees.filter (0 < ·))

/-- Lowers the first `k` entries by one. -/
def lowerFirst : (k : Nat) → List Int → List Int
  | 0, ds => ds
  | _ + 1, [] => []
  | k + 1, d :: ds => (d - 1) :: lowerFirst k ds

@[simp] theorem length_lowerFirst (k : Nat) (ds : List Int) :
    (lowerFirst k ds).length = ds.length := by
  induction ds generalizing k with
  | nil => cases k <;> rfl
  | cons d ds ih => cases k <;> simp [lowerFirst, ih]

theorem length_demands_le (ds : List Int) : (demands ds).length ≤ ds.length := by
  simpa [demands, descending] using List.length_filter_le (fun d : Int ↦ decide (0 < d)) ds

/-- The reduction of positive entries in descending order never lacks an entry. -/
def reduces : List Int → Bool
  | [] => true
  | d :: rest =>
    if rest.length < d.toNat then false else reduces (demands (lowerFirst d.toNat rest))
termination_by ds => ds.length
decreasing_by
  have := length_demands_le (lowerFirst d.toNat rest)
  simp only [length_lowerFirst] at this
  simp only [List.length_cons]
  omega

/-- Some simple graph has these degrees. -/
def passes (degrees : List Int) : Bool := hasParityAndSign degrees && reduces (demands degrees)

end DegreeGraph.HavelHakimi
