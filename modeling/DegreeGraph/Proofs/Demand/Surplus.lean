import Mathlib

/-!
# Surplus demands

Nodes ask for edges. Of two disjoint sets of nodes, the `high` ones can get edges from the `low`
ones, as many as those ask for, and from all nodes that are not low, one from each. What they ask
for beyond that is the surplus. A graph leaves no surplus anywhere, and `isGraphical_iff` shows
that nothing else stands in the way of a graph but an odd sum.

The textbook has one set of nodes and a minimum in the place of the second set. The two sets are
used here because the surplus is linear in the demands, and because moving one node between the
sets changes it by a term that does not depend on where the others stand.
-/

namespace DegreeGraph

open Finset

universe u

variable {V : Type u} [Fintype V]

/-- What the nodes of `high` ask for beyond the demands of `low` and one edge from each other node
that is not low. -/
def surplus (d : V → ℤ) (high low : Finset V) : ℤ :=
  ∑ v ∈ high, d v - ∑ v ∈ low, d v - high.card * (Fintype.card V - 1 - low.card)

/-- There is no surplus. -/
def IsSupplied (d : V → ℤ) : Prop := ∀ high low, Disjoint high low → surplus d high low ≤ 0

variable {d : V → ℤ} {high low : Finset V} {v : V}

/-! ## Single nodes -/

theorem IsSupplied.nonneg (h : IsSupplied d) (v : V) : 0 ≤ d v := by
  have hv := h ∅ {v} (disjoint_empty_left _)
  simpa [surplus] using hv

theorem IsSupplied.lt_card (h : IsSupplied d) (v : V) : d v < Fintype.card V := by
  have hv := h {v} ∅ (disjoint_empty_right _)
  simp only [surplus, sum_singleton, sum_empty, card_singleton, card_empty] at hv
  omega

/-! ## Moving one node -/

variable [DecidableEq V]

theorem surplus_insert_high (d : V → ℤ) (low : Finset V) (h : v ∉ high) :
    surplus d (insert v high) low = surplus d high low + d v - (Fintype.card V - 1 - low.card) := by
  rw [surplus, surplus, sum_insert h, card_insert_of_notMem h]
  push_cast
  ring

theorem surplus_insert_low (d : V → ℤ) (high : Finset V) (h : v ∉ low) :
    surplus d high (insert v low) = surplus d high low - d v + high.card := by
  rw [surplus, surplus, sum_insert h, card_insert_of_notMem h]
  push_cast
  ring

theorem surplus_erase_high (d : V → ℤ) (low : Finset V) (h : v ∈ high) :
    surplus d (high.erase v) low = surplus d high low - d v + (Fintype.card V - 1 - low.card) := by
  have hmove := surplus_insert_high d low (notMem_erase v high)
  rw [insert_erase h] at hmove
  omega

theorem surplus_erase_low (d : V → ℤ) (high : Finset V) (h : v ∈ low) :
    surplus d high (low.erase v) = surplus d high low + d v - high.card := by
  have hmove := surplus_insert_low d high (notMem_erase v low)
  rw [insert_erase h] at hmove
  omega

/-- When every node is high or low, the surplus is even with the sum of the demands. -/
theorem even_surplus (hsum : Even (∑ v, d v)) (hdisj : Disjoint high low)
    (hall : high ∪ low = univ) : Even (surplus d high low) := by
  have hcard : high.card + low.card = Fintype.card V := by
    rw [← card_union_of_disjoint hdisj, hall, card_univ]
  have hparts : ∑ v, d v = ∑ v ∈ high, d v + ∑ v ∈ low, d v := by
    rw [← sum_union hdisj, hall]
  have hpairs : surplus d high low
      = ∑ v, d v - 2 * ∑ v ∈ low, d v - high.card * (high.card - 1) := by
    rw [surplus, hparts, ← hcard]
    push_cast
    ring
  rw [hpairs]
  exact (hsum.sub (even_two_mul _)).sub (Int.even_mul_pred_self _)

/-! ## One set of nodes -/

/-- The inequalities of the textbook: against a high side, the least surplus is at the nodes that
ask for fewer edges than there are high nodes. -/
theorem isSupplied_iff_min : IsSupplied d ↔ ∀ high : Finset V,
    ∑ v ∈ high, d v ≤ high.card * (high.card - 1) + ∑ v ∈ highᶜ, min (high.card : ℤ) (d v) := by
  constructor
  · intro h high
    have hdisj : Disjoint high {v ∈ highᶜ | d v < high.card} :=
      disjoint_of_subset_right (filter_subset _ _) disjoint_compl_right
    have hle := h high _ hdisj
    have hmin : ∑ v ∈ highᶜ, min (high.card : ℤ) (d v)
        = ∑ v ∈ highᶜ with d v < high.card, d v
          + Finset.card {v ∈ highᶜ | ¬d v < high.card} * high.card := by
      rw [← sum_filter_add_sum_filter_not _ fun v ↦ d v < high.card, ← nsmul_eq_mul, ← sum_const]
      refine congrArg₂ _ (sum_congr rfl fun v hv ↦ ?_) (sum_congr rfl fun v hv ↦ ?_)
      · exact min_eq_right (mem_filter.mp hv).2.le
      · exact min_eq_left (not_lt.mp (mem_filter.mp hv).2)
    have hcard := card_filter_add_card_filter_not (s := highᶜ) fun v ↦ d v < high.card
    have hcompl := card_add_card_compl high
    rw [surplus] at hle
    rw [hmin]
    have hrest : ((Finset.card {v ∈ highᶜ | ¬d v < high.card} : ℕ) : ℤ)
        = Fintype.card V - high.card - Finset.card {v ∈ highᶜ | d v < high.card} := by omega
    rw [hrest]
    linarith
  · intro h high low hdisj
    have hlow : low ⊆ highᶜ := subset_compl_iff_disjoint_left.mpr hdisj
    have hmin : ∑ v ∈ highᶜ, min (high.card : ℤ) (d v)
        ≤ ∑ v ∈ low, d v + (highᶜ \ low).card * high.card := by
      rw [← sum_sdiff hlow, add_comm, ← nsmul_eq_mul, ← sum_const]
      exact add_le_add (sum_le_sum fun v _ ↦ min_le_right _ _)
        (sum_le_sum fun v _ ↦ min_le_left _ _)
    have hcard := card_sdiff_of_subset hlow
    have hle := card_le_card hlow
    have hcompl := card_add_card_compl high
    have hrest : ((highᶜ \ low).card : ℤ) = Fintype.card V - high.card - low.card := by omega
    rw [hrest] at hmin
    rw [surplus]
    linarith [h high]

end DegreeGraph
