import Mathlib
import DegreeGraph.Sampling.Pivot

/-!
# What the pivot is

The pivot is determined by what it is chosen for: its demand is positive, no positive demand is
smaller, and no earlier node has one of the same size. `selectPivot_eq_some_iff` is all that later
proofs use of the choice.
-/

namespace DegreeGraph

variable {residual : List ℤ} {v : ℕ}

/-- A node has the least positive demand, and is the first of those that have it. -/
structure IsPivot (residual : List ℤ) (v : ℕ) : Prop where
  pos : 0 < residual.getD v 0
  least : ∀ i, 0 < residual.getD i 0 →
    residual.getD v 0 < residual.getD i 0 ∨ residual.getD v 0 = residual.getD i 0 ∧ v ≤ i

theorem IsPivot.le (h : IsPivot residual v) {i : ℕ} (hi : 0 < residual.getD i 0) :
    residual.getD v 0 ≤ residual.getD i 0 := by
  rcases h.least i hi with hlt | ⟨heq, -⟩
  · exact hlt.le
  · exact heq.le

theorem IsPivot.unique {w : ℕ} (hv : IsPivot residual v) (hw : IsPivot residual w) : v = w := by
  rcases hv.least w hw.pos with hlt | ⟨heq, hle⟩ <;>
    rcases hw.least v hv.pos with hlt' | ⟨heq', hle'⟩ <;> omega

theorem IsPivot.lt_length (h : IsPivot residual v) : v < residual.length := by
  refine not_le.mp fun hle ↦ ?_
  have hpos := h.pos
  rw [List.getD_eq_default _ _ hle] at hpos
  exact lt_irrefl 0 hpos

theorem isPivot_cons_zero {d : ℤ} {rest : List ℤ} (hd : 0 < d)
    (hrest : ∀ i, 0 < rest.getD i 0 → d ≤ rest.getD i 0) : IsPivot (d :: rest) 0 := by
  refine ⟨hd, fun i hi ↦ ?_⟩
  cases i with
  | zero => exact Or.inr ⟨rfl, le_rfl⟩
  | succ i =>
    have hle := hrest i hi
    rw [List.getD_cons_zero, List.getD_cons_succ]
    exact hle.lt_or_eq.imp_right fun heq ↦ ⟨heq, Nat.zero_le _⟩

theorem IsPivot.cons {d : ℤ} {rest : List ℤ} (h : IsPivot rest v) (hd : 0 < d → rest.getD v 0 < d) :
    IsPivot (d :: rest) (v + 1) := by
  refine ⟨h.pos, fun i hi ↦ ?_⟩
  cases i with
  | zero => exact Or.inl (hd hi)
  | succ i => exact (h.least i hi).imp_right fun ⟨heq, hle⟩ ↦ ⟨heq, Nat.succ_le_succ hle⟩

theorem leastPositive_spec (residual : List ℤ) :
    (leastPositive residual = none ∧ ∀ i, residual.getD i 0 ≤ 0) ∨
      ∃ v, leastPositive residual = some (v, residual.getD v 0) ∧ IsPivot residual v := by
  induction residual with
  | nil => exact Or.inl ⟨rfl, fun i ↦ by simp⟩
  | cons d rest ih =>
    rcases ih with ⟨hnone, hle⟩ | ⟨v, hsome, hpivot⟩
    · rw [leastPositive, hnone]
      by_cases hd : 0 < d
      · refine Or.inr ⟨0, if_pos hd, isPivot_cons_zero hd fun i hi ↦ ?_⟩
        exact absurd hi (not_lt.mpr (hle i))
      · refine Or.inl ⟨if_neg hd, fun i ↦ ?_⟩
        cases i with
        | zero => exact not_lt.mp hd
        | succ i => exact hle i
    · rw [leastPositive, hsome]
      refine Or.inr ?_
      by_cases hd : 0 < d ∧ d ≤ rest.getD v 0
      · exact ⟨0, if_pos hd, isPivot_cons_zero hd.1 fun i hi ↦ hd.2.trans (hpivot.le hi)⟩
      · exact ⟨v + 1, if_neg hd, hpivot.cons fun hpos ↦ not_le.mp fun hle ↦ hd ⟨hpos, hle⟩⟩

theorem selectPivot_eq_some_iff : selectPivot residual = some v ↔ IsPivot residual v := by
  rcases leastPositive_spec residual with ⟨hnone, hle⟩ | ⟨w, hsome, hpivot⟩
  · rw [selectPivot, hnone]
    exact iff_of_false (Option.some_ne_none v).symm fun h ↦ absurd h.pos (not_lt.mpr (hle v))
  · rw [selectPivot, hsome, Option.map_some, Option.some.injEq]
    exact ⟨fun heq ↦ heq ▸ hpivot, fun h ↦ hpivot.unique h⟩

theorem selectPivot_eq_none_iff : selectPivot residual = none ↔ ∀ i, residual.getD i 0 ≤ 0 := by
  rcases leastPositive_spec residual with ⟨hnone, hle⟩ | ⟨w, hsome, hpivot⟩
  · rw [selectPivot, hnone]
    exact iff_of_true rfl hle
  · rw [selectPivot, hsome]
    exact iff_of_false (Option.some_ne_none w) fun h ↦ absurd hpivot.pos (not_lt.mpr (h w))

theorem leastPositive_eq_some_iff {d : ℤ} : leastPositive residual = some (v, d)
    ↔ IsPivot residual v ∧ d = residual.getD v 0 := by
  rcases leastPositive_spec residual with ⟨hnone, hle⟩ | ⟨w, hsome, hpivot⟩
  · rw [hnone]
    exact iff_of_false (Option.some_ne_none _).symm fun h ↦ absurd h.1.pos (not_lt.mpr (hle v))
  · rw [hsome, Option.some.injEq, Prod.mk.injEq]
    constructor
    · rintro ⟨rfl, rfl⟩
      exact ⟨hpivot, rfl⟩
    · rintro ⟨hv, rfl⟩
      obtain rfl := hpivot.unique hv
      exact ⟨rfl, rfl⟩

end DegreeGraph
