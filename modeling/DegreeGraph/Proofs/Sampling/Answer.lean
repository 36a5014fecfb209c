import DegreeGraph.Proofs.Sampling.Realization

/-!
# Every answer is a realization

A realization is only answered by a run that gave up nowhere, be it the first one or a restart. With
one of the tests that are always there such a run has met all demands, so whatever the budget, the
limit of restarts and the draws are, an answer is a graph with the degrees that were asked for
(`Realization.Meets`). A caller who writes the answer down somewhere needs no more than this.
-/

namespace DegreeGraph

universe u

variable {σ : Type u} {feasible : List ℤ → Bool} {settings : Settings} {source : Source σ}
  {degrees : List ℤ} {state : σ} {config : Config} {r : Realization}

/-- The edges are those of a simple graph with given degrees, each listed once. -/
structure Realization.Meets (r : Realization) (degrees : List ℤ) : Prop where
  nodup : r.edges.Nodup
  edges : AreEdges degrees.length r.edges
  degree_eq : ∀ i : Fin degrees.length, (degreeIn r.edges i : ℤ) = degrees.get i

theorem Realization.degreeIn_edges (r : Realization) (i : ℕ) :
    degreeIn r.edges i = degreeIn r.order i := by
  rw [degreeIn, degreeIn, edges, (perm_sortedBy edgeAtMost r.order).countP_eq]

/-- A realization lists the edges of a run in another order. -/
theorem Run.Meets.realization {run : Run σ} (h : run.Meets degrees) (horder : r.order = run.edges) :
    r.Meets degrees := by
  have hperm : r.edges.Perm run.edges := horder ▸ perm_sortedBy edgeAtMost r.order
  refine ⟨hperm.nodup_iff.mpr h.nodup, fun e he ↦ h.edges e (hperm.mem_iff.mp he), fun i ↦ ?_⟩
  rw [r.degreeIn_edges, horder]
  exact h.degree_eq i

namespace Realization.Meets

theorem two_mul_length_edges (h : r.Meets degrees) :
    2 * (r.edges.length : ℤ) = degrees.sum := by
  rw [← sum_degreeIn h.edges, ← Fin.sum_univ_getElem]
  exact Finset.sum_congr rfl fun i _ ↦ h.degree_eq i

theorem realizes (h : r.Meets degrees) :
    Realizes (edgeGraph degrees.length r.edges) degrees.get := by
  have hgraph := realizes_edgeGraph h.nodup h.edges
  rwa [funext h.degree_eq] at hgraph

end Realization.Meets

/-! ## From an answer to its run -/

theorem exists_last_eq_run (feasible : List ℤ → Bool) (settings : Settings) (source : Source σ)
    (degrees : List ℤ) (restarts : ℕ) (state : σ) :
    ∃ s, (attempt feasible settings source degrees restarts state).last
      = run feasible settings source degrees s := by
  induction restarts generalizing state with
  | zero => exact ⟨state, rfl⟩
  | succ restarts ih =>
    rw [attempt]
    split
    · exact ih _
    · exact ⟨state, rfl⟩

theorem exists_run_of_sampleDegrees
    (h : (sampleDegrees feasible settings source state degrees).answer = .ok r) :
    feasible degrees = true ∧ ∃ s, (run feasible settings source degrees s).givenUp? = none
      ∧ r.order = (run feasible settings source degrees s).edges := by
  rw [sampleDegrees] at h
  split at h
  · rename_i hpasses
    obtain ⟨s, hs⟩ := exists_last_eq_run feasible settings source degrees settings.restarts.toNat
      state
    simp only [Attempt.outcome, attemptAll, hs] at h
    refine ⟨hpasses, s, ?_⟩
    cases hdone : (run feasible settings source degrees s).givenUp? with
    | some turn =>
      rw [hdone] at h
      cases h
    | none =>
      rw [hdone] at h
      cases h
      exact ⟨rfl, rfl⟩
  · cases h

theorem Sampling.answer_of_insteadOfExhausted {s : Sampling} {fault : Fault}
    (h : (s.insteadOfExhausted fault).answer = .ok r) : s.answer = .ok r := by
  rw [insteadOfExhausted] at h
  split at h
  · cases h
  · exact h

theorem exists_sampleDegrees_of_sampleWith
    (h : (sampleWith config feasible source state degrees).answer = .ok r) :
    ∃ settings : Settings, settings.skipSpent = config.skipSpent.holds
      ∧ (sampleDegrees feasible settings source state degrees).answer = .ok r := by
  rw [sampleWith] at h
  split at h
  · cases h
  · split at h
    · cases h
    · exact ⟨_, rfl, Sampling.answer_of_insteadOfExhausted h⟩
    · exact ⟨_, rfl, h⟩

/-- **Whatever the settings are, an answer under an exact test is a realization.** -/
theorem meets_of_sampleWith (hexact : IsExact feasible)
    (h : (sampleWith config feasible source state degrees).answer = .ok r) : r.Meets degrees := by
  obtain ⟨settings, -, hanswer⟩ := exists_sampleDegrees_of_sampleWith h
  obtain ⟨hpasses, s, hdone, horder⟩ := exists_run_of_sampleDegrees hanswer
  exact (meets_of_givenUp?_eq_none hexact ((hexact degrees).mp hpasses) hdone).realization horder

/-! ## Answers for data -/

variable {sequence : Datum} {sampler : (List ℤ → Bool) → List ℤ → Sampling}

theorem meets_of_realizeBy (htest : config.HasBuiltInTest)
    (hsampler : ∀ feasible degrees r, IsExact feasible →
      (sampler feasible degrees).answer = .ok r → r.Meets degrees)
    (h : (realizeBy .builtIn config sampler sequence).answer = .ok r) :
    ∃ degrees, degreesOf sequence = .ok degrees ∧ r.Meets degrees := by
  obtain ⟨test, hresolve, hexact⟩ := htest.exists_resolve
  rw [realizeBy] at h
  cases hdegrees : degreesOf sequence with
  | error fault =>
    rw [hdegrees] at h
    cases h
  | ok degrees =>
    rw [hdegrees, hresolve] at h
    exact ⟨degrees, rfl, hsampler test.passes degrees r hexact h⟩

theorem meets_of_realizeFrom (htest : config.HasBuiltInTest)
    (h : (realizeFrom .builtIn config source state sequence).answer = .ok r) :
    ∃ degrees, degreesOf sequence = .ok degrees ∧ r.Meets degrees :=
  meets_of_realizeBy htest (fun _ _ _ hexact ↦ meets_of_sampleWith hexact) h

theorem meets_of_sampleSeeded (hexact : IsExact feasible) {seed : Datum}
    (h : (Draws.sampleSeeded config feasible seed degrees).answer = .ok r) : r.Meets degrees := by
  rw [Draws.sampleSeeded] at h
  split at h
  · exact meets_of_sampleWith hexact h
  · cases h

theorem meets_of_realize (htest : config.HasBuiltInTest) {draws : Draws}
    (h : (realize .builtIn config draws sequence).answer = .ok r) :
    ∃ degrees, degreesOf sequence = .ok degrees ∧ r.Meets degrees := by
  rw [realize] at h
  split at h
  · cases h
  · refine meets_of_realizeBy htest (fun feasible degrees r hexact hr ↦ ?_) h
    cases draws with
    | script values => exact meets_of_sampleWith hexact hr
    | twister seed => exact meets_of_sampleSeeded hexact hr
    | own seed => exact meets_of_sampleSeeded hexact hr

end DegreeGraph
