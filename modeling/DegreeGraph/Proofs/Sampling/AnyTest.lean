import DegreeGraph.Proofs.Sampling.Answer

/-!
# Answers under any test

A caller may bring a feasibility test of their own, and it may be wrong. What an answer is worth
then rests on the account of the run, which no test can upset: the demands that are left are what
the degrees lack in the placed edges. A run ends when no demand is positive, so every node has at
least the edges that were asked for it.

A node has more of them only if its demand fell below zero on the way. Two guards prevent that.
Partners without demand are skipped, which protects every node that did not ask for a negative
number (`Reaches.residual_nonneg_of_skipSpent`); or the test refuses negative demands, which
protects all nodes (`Reaches.residual_nonneg_of_refusesNegative`).
-/

namespace DegreeGraph

universe u

variable {σ : Type u} {feasible : List ℤ → Bool} {settings : Settings} {source : Source σ}
  {degrees : List ℤ} {p : Progress} {s₀ s : σ} {pivot partner i : ℕ}

/-- A test that refuses every sequence with a negative entry. -/
def RefusesNegative (feasible : List ℤ → Bool) : Prop :=
  ∀ ds, (∃ d ∈ ds, d < 0) → feasible ds = false

theorem RefusesNegative.getD_nonneg (h : RefusesNegative feasible) {ds : List ℤ}
    (hpasses : feasible ds = true) (i : ℕ) : 0 ≤ ds.getD i 0 := by
  by_contra hneg
  have hlt : i < ds.length := by
    by_contra hle
    rw [List.getD_eq_default _ _ (not_lt.mp hle)] at hneg
    exact hneg le_rfl
  rw [List.getD_eq_getElem _ _ hlt] at hneg
  rw [h ds ⟨_, List.getElem_mem hlt, not_le.mp hneg⟩] at hpasses
  exact Bool.false_ne_true hpasses

theorem IsExact.refusesNegative (h : IsExact feasible) : RefusesNegative feasible := by
  intro ds hneg
  obtain ⟨d, hd, hlt⟩ := hneg
  obtain ⟨k, hk, rfl⟩ := List.getElem_of_mem hd
  rw [Bool.eq_false_iff]
  intro hpasses
  have hnonneg := (isGraphical_iff.mp ((h ds).mp hpasses)).2.nonneg ⟨k, hk⟩
  exact absurd hlt (not_lt.mpr hnonneg)

/-! ## Demands that do not fall below zero -/

/-- A turn lowers the demands of two nodes. Both were positive if the partner was not spent. -/
theorem Progress.residual_commit_nonneg (hpivot : 0 < p.residual.getD pivot 0)
    (hne : partner ≠ pivot) (hi : 0 ≤ p.residual.getD i 0)
    (hspent : i = partner → p.residual.getD partner 0 ≠ 0) :
    0 ≤ (p.commit pivot partner).residual.getD i 0 := by
  by_cases hlt : i < p.residual.length
  · rw [commit, getD_lowered p pivot partner i hlt]
    by_cases hip : i = pivot
    · subst hip
      rw [if_pos rfl, if_neg hne.symm]
      omega
    · rw [if_neg hip]
      by_cases hij : i = partner
      · have hpos := hspent hij
        subst hij
        rw [if_pos rfl]
        omega
      · rw [if_neg hij]
        omega
  · rw [List.getD_eq_default]
    rw [commit, length_lowered]
    exact not_lt.mp hlt

theorem Reaches.residual_nonneg_of_skipSpent
    (h : Reaches feasible settings source (.start degrees) s₀ p s)
    (hskip : settings.skipSpent = true) (hi : 0 ≤ degrees.getD i 0) :
    0 ≤ p.residual.getD i 0 := by
  induction h with
  | start => exact hi
  | @turn p s pivot partner hreach hpivot hfound ih =>
    have hfits := hreach.accounts.fits_search feasible settings source pivot s
    obtain ⟨-, hne⟩ := mem_partnersOf.mp (hfits.partner_mem hfound)
    obtain ⟨-, hspent, -⟩ := judge_eq_accepted_iff.mp (hfits.accepted hfound)
    apply Progress.residual_commit_nonneg (selectPivot_eq_some_iff.mp hpivot).pos hne ih
    intro _ hzero
    exact hspent ⟨hskip, hzero⟩

/-- Wherever a run stands, the demands that are left have passed the test. -/
theorem Reaches.feasible_residual (h : Reaches feasible settings source (.start degrees) s₀ p s)
    (hpasses : feasible degrees = true) : feasible p.residual = true := by
  cases h with
  | start => exact hpasses
  | @turn p s pivot partner hreach hpivot hfound =>
    have hfits := hreach.accounts.fits_search feasible settings source pivot s
    exact (judge_eq_accepted_iff.mp (hfits.accepted hfound)).2.2

theorem Reaches.residual_nonneg_of_refusesNegative
    (h : Reaches feasible settings source (.start degrees) s₀ p s)
    (hpasses : feasible degrees = true) (hnegative : RefusesNegative feasible) (i : ℕ) :
    0 ≤ p.residual.getD i 0 :=
  hnegative.getD_nonneg (h.feasible_residual hpasses) i

/-! ## Where a run ends -/

namespace Progress.Accounts

theorem residual_get (h : p.Accounts degrees) (i : Fin degrees.length) :
    p.residual.getD i 0 = degrees.get i - degreeIn p.edges i := by
  rw [h.residual_eq i i.isLt, List.getD_eq_getElem _ _ i.isLt]
  rfl

theorem get_le_degreeIn (h : p.Accounts degrees) (hmet : selectPivot p.residual = none)
    (i : Fin degrees.length) : degrees.get i ≤ degreeIn p.edges i := by
  have hle := selectPivot_eq_none_iff.mp hmet i
  rw [h.residual_get i] at hle
  exact sub_nonpos.mp hle

theorem degreeIn_eq_get (h : p.Accounts degrees) (hmet : selectPivot p.residual = none)
    {i : Fin degrees.length} (hnonneg : 0 ≤ p.residual.getD i 0) :
    (degreeIn p.edges i : ℤ) = degrees.get i := by
  apply le_antisymm _ (h.get_le_degreeIn hmet i)
  rw [h.residual_get i] at hnonneg
  exact sub_nonneg.mp hnonneg

end Progress.Accounts

/-- A run that gives up nowhere places one edge in each turn. -/
theorem length_edges_of_givenUp?_eq_none {r : Run σ} (h : r.givenUp? = none) :
    r.edges.length = r.turns.length := by
  apply List.filterMap_length_eq_length.mpr
  intro t ht
  obtain ⟨partner, htaken⟩ := exists_partner_of_givenUp?_eq_none h ht
  rw [Turn.edge?, htaken]
  rfl

/-! ## The answer -/

variable {config : Config} {state : σ} {r : Realization}

/-- An answer lists the edges of a place that a run has reached and where nothing is asked for. -/
theorem exists_end_of_sampleWith
    (h : (sampleWith config feasible source state degrees).answer = .ok r) :
    ∃ settings : Settings, settings.skipSpent = config.skipSpent.holds
      ∧ feasible degrees = true ∧ ∃ s q u,
        Reaches feasible settings source (.start degrees) s q u
          ∧ selectPivot q.residual = none ∧ r.order = q.edges
          ∧ r.order = (run feasible settings source degrees s).edges
          ∧ (run feasible settings source degrees s).turns.length = r.order.length := by
  obtain ⟨settings, hskip, hanswer⟩ := exists_sampleDegrees_of_sampleWith h
  obtain ⟨hpasses, s, hdone, horder⟩ := exists_run_of_sampleDegrees hanswer
  obtain ⟨q, u, hq, hedges, hmet⟩ := exists_end_of_givenUp?_eq_none hdone
  refine ⟨settings, hskip, hpasses, s, q, u, hq, hmet, horder.trans hedges.symm, horder, ?_⟩
  rw [horder, length_edges_of_givenUp?_eq_none hdone]

/-- **What an answer keeps under any test.** Whatever the test, the settings and the draws are, the
answer is a simple graph on the nodes, its edges are listed once each in the order of the turns
that placed them, and every node has at least the edges that were asked for it. It has exactly
those if partners without demand are skipped and it did not ask for a negative number, and always
if the test refuses negative entries, as both of the tests do that are always there. -/
theorem answer_covers_degrees (feasible : List ℤ → Bool) (config : Config) (source : Source σ)
    (state : σ) (degrees : List ℤ)
    (h : (sampleWith config feasible source state degrees).answer = .ok r) :
    (∀ e ∈ r.edges, e.1 < e.2 ∧ e.2 < degrees.length) ∧
    r.order.Nodup ∧ r.order.Perm r.edges ∧ r.iterations = r.edges.length ∧
    (∃ settings s, (run feasible settings source degrees s).edges = r.order
      ∧ (run feasible settings source degrees s).turns.length = r.iterations) ∧
    (∀ i : Fin degrees.length, degrees.get i ≤ degreeIn r.edges i) ∧
    (config.skipSpent.holds = true → ∀ i : Fin degrees.length, 0 ≤ degrees.get i →
      (degreeIn r.edges i : ℤ) = degrees.get i) ∧
    (RefusesNegative feasible → ∀ i : Fin degrees.length,
      (degreeIn r.edges i : ℤ) = degrees.get i) ∧
    ∀ test : Feasibility, test = .erdosGallai ∨ test = .havelHakimi →
      RefusesNegative test.passes := by
  obtain ⟨settings, hskip, hpasses, s, q, u, hq, hmet, horder, hrun, hturns⟩ :=
    exists_end_of_sampleWith h
  have haccounts := hq.accounts
  have hperm : r.edges.Perm r.order := perm_sortedBy edgeAtMost r.order
  refine ⟨?_, horder ▸ haccounts.nodup, hperm.symm, hperm.length_eq.symm,
    ⟨settings, s, hrun.symm, hturns⟩, ?_, ?_, ?_,
    fun test htest ↦ (isExact_passes htest).refusesNegative⟩
  · intro e he
    apply haccounts.edges e
    rw [← horder]
    exact hperm.mem_iff.mp he
  · intro i
    rw [r.degreeIn_edges, horder]
    exact haccounts.get_le_degreeIn hmet i
  · intro hholds i hi
    rw [r.degreeIn_edges, horder]
    apply haccounts.degreeIn_eq_get hmet
    apply hq.residual_nonneg_of_skipSpent (hskip.trans hholds)
    rw [List.getD_eq_getElem _ _ i.isLt]
    exact hi
  · intro hnegative i
    rw [r.degreeIn_edges, horder]
    exact haccounts.degreeIn_eq_get hmet (hq.residual_nonneg_of_refusesNegative hpasses hnegative i)

/-- With a test that passes everything, a node that asked for nothing gets an edge. -/
theorem answer_covers_degrees_passing_all :
    let r : Realization := ⟨[(0, 2), (0, 1)], 2, 2, 0⟩
    (sampleWith { skipSpent := .bool false } (fun _ ↦ true) frontSource () [2, 0, 1]).answer
        = .ok r
      ∧ r.order.Nodup ∧ degreeIn r.edges 1 = 1
      ∧ ∀ i : Fin 3, [2, 0, 1].get i ≤ (degreeIn r.edges i : ℤ) := by
  intro r
  have hanswer : (sampleWith { skipSpent := .bool false } (fun _ ↦ true) frontSource ()
      [2, 0, 1]).answer = .ok r := by cbv
  obtain ⟨-, hnodup, -, -, -, hcovers, -, -, -⟩ :=
    answer_covers_degrees _ _ frontSource () _ hanswer
  exact ⟨hanswer, hnodup, by decide, hcovers⟩

end DegreeGraph
