import DegreeGraph.Proofs.Sampling.Restarts
import DegreeGraph.Proofs.Sampling.Rounds

/-!
# How long a sampling can take

A test may be wrong, and then demands fall below zero, partners with demand are refused, and all
restarts are used up. Still a sampling ends. A search draws each of the other nodes at most once,
since its pool shrinks. A turn that places an edge lowers the sum of the positive demands, and the
edge is one that was not there; so a run places at most as many edges as either leaves room for, and
only its last turn places none. And there are as many runs as one and the restarts that are allowed.

No budget is needed for this, and none makes it worse.
-/

namespace DegreeGraph

universe u

variable {σ : Type u} {feasible : List ℤ → Bool} {settings : Settings} {source : Source σ}
  {degrees : List ℤ} {state s₀ s : σ} {config : Config} {p₀ p : Progress} {n : ℕ}
  {edges : List Edge}

/-! ## The edges of a run -/

/-- There is at most one edge for each two nodes. -/
theorem AreEdges.length_le (h : AreEdges n edges) (hnodup : edges.Nodup) :
    edges.length ≤ n * (n - 1) / 2 := by
  classical
  have hdegree (i : Fin n) : (degreeIn edges i : ℤ) ≤ (n - 1 : ℕ) := by
    have hlt := (edgeGraph n edges).degree_lt_card_verts i
    rw [Fintype.card_fin] at hlt
    rw [← realizes_iff.mp (realizes_edgeGraph hnodup h) i]
    exact Int.ofNat_le.mpr (Nat.le_sub_one_of_lt hlt)
  have hsum : 2 * (edges.length : ℤ) ≤ (n * (n - 1) : ℕ) := by
    calc 2 * (edges.length : ℤ) = ∑ i : Fin n, (degreeIn edges i : ℤ) := (sum_degreeIn h).symm
      _ ≤ ∑ _i : Fin n, ((n - 1 : ℕ) : ℤ) := Finset.sum_le_sum fun i _ ↦ hdegree i
      _ = (n * (n - 1) : ℕ) := by simp
  omega

/-- Every edge is paid for with the sum of the positive demands. -/
theorem Reaches.length_edges_add_openDemand_le
    (h : Reaches feasible settings source p₀ s₀ p s) :
    p.edges.length + openDemand p.residual ≤ p₀.edges.length + openDemand p₀.residual := by
  induction h with
  | start => exact le_rfl
  | @turn p s pivot partner _ hpivot hfound ih =>
    have hless := openDemand_commit_lt
      (leastPositive_eq_some_iff.mpr ⟨selectPivot_eq_some_iff.mp hpivot, rfl⟩) partner
    have hone : (p.commit pivot partner).edges.length = p.edges.length + 1 := by
      rw [Progress.commit, List.length_append, List.length_singleton]
    omega

/-- The edges that a run has room for. -/
def mostEdges (degrees : List ℤ) : ℕ :=
  min (openDemand degrees) (degrees.length * (degrees.length - 1) / 2)

theorem length_edges_run_le (s : σ) :
    (run feasible settings source degrees s).edges.length ≤ mostEdges degrees := by
  have hstart : Reaches feasible settings source (.start degrees) s (.start degrees) s := .start
  obtain ⟨q, u, hq, hedges, -⟩ := hstart.exists_end
  have hlast : q.edges = (run feasible settings source degrees s).edges :=
    hedges.trans (List.nil_append _)
  have hpaid := hq.length_edges_add_openDemand_le
  rw [← hlast]
  apply le_min _ (hq.accounts.edges.length_le hq.accounts.nodup)
  simp only [Progress.start, List.length_nil] at hpaid
  omega

/-- Only its last turn can leave a run without another edge. -/
theorem length_turns_le (p : Progress) (s : σ) :
    (runFrom feasible settings source p s).turns.length
      ≤ (runFrom feasible settings source p s).edges.length + 1 := by
  induction p, s using run_induction feasible settings source with
  | met p s hpivot =>
    rw [runFrom_met hpivot]
    exact Nat.zero_le _
  | stuck p s pivot hpivot hnone =>
    rw [runFrom_stuck hpivot hnone]
    exact Nat.succ_le_succ (Nat.zero_le _)
  | turn p s pivot partner hpivot hfound ih =>
    rw [edges_runFrom_turn hpivot hfound, runFrom_turn hpivot hfound]
    exact Nat.succ_le_succ ih

theorem length_turns_run_le (s : σ) :
    (run feasible settings source degrees s).turns.length ≤ mostEdges degrees + 1 :=
  (length_turns_le _ s).trans (Nat.succ_le_succ (length_edges_run_le s))

/-! ## The draws of all runs -/

theorem draws_run_le (s : σ) : (run feasible settings source degrees s).draws
    ≤ (mostEdges degrees + 1) * (degrees.length - 1) := by
  have hstart : Reaches feasible settings source (.start degrees) s (.start degrees) s := .start
  have hdraws : (run feasible settings source degrees s).draws
      ≤ (run feasible settings source degrees s).turns.length * (degrees.length - 1) :=
    total_map_le_mul fun t ht ↦ hstart.draws_le ht
  exact hdraws.trans (Nat.mul_le_mul_right _ (length_turns_run_le s))

namespace Attempt.IsMade

variable {restarts : ℕ} {a : Attempt σ}

theorem exists_eq_run (h : a.IsMade feasible settings source degrees restarts state) {r : Run σ}
    (hr : r ∈ a.runs) : ∃ s, r = run feasible settings source degrees s := by
  rw [h.runs_eq] at hr
  obtain ⟨s, -, heq⟩ := List.mem_map.mp hr
  exact ⟨s, heq.symm⟩

theorem length_runs_le (h : a.IsMade feasible settings source degrees restarts state) :
    a.runs.length ≤ restarts + 1 := by
  rw [runs, List.length_append, List.length_singleton]
  exact Nat.succ_le_succ h.length_le

theorem draws_le (h : a.IsMade feasible settings source degrees restarts state) :
    a.draws ≤ (restarts + 1) * ((mostEdges degrees + 1) * (degrees.length - 1)) := by
  have hdraws : a.draws ≤ a.runs.length * ((mostEdges degrees + 1) * (degrees.length - 1)) := by
    apply total_map_le_mul
    intro r hr
    obtain ⟨s, rfl⟩ := h.exists_eq_run hr
    exact draws_run_le s
  exact hdraws.trans (Nat.mul_le_mul_right _ h.length_runs_le)

end Attempt.IsMade

/-! ## The end -/

/-- Degrees that pass are sampled by runs if the limits are whole numbers or there is no budget. -/
theorem sampleWith_of_limits {most : ℤ} (hpasses : feasible degrees = true)
    (hbudget : config.budget = .null ∨ ∃ budget, config.budget.toInt? = some budget)
    (hrestarts : config.restarts.toInt? = some most) :
    sampleWith config feasible source state degrees
      = sampleDegrees feasible config.settings source state degrees := by
  obtain ⟨draws, hgrants⟩ : ∃ draws, config.GrantsBudget draws := by
    rcases hbudget with hnull | ⟨budget, hbudget⟩
    · exact ⟨0, Or.inl hnull⟩
    · exact ⟨budget, Or.inr ⟨budget, hbudget, le_rfl⟩⟩
  exact sampleWith_of_fit hpasses (hgrants.budgetFault?_eq_none degrees)
    (Config.countFault?_eq_none hrestarts)

/-- The loops are left with the outcome of all runs, and within a bounded number of rounds. -/
theorem within_start (feasible : List ℤ → Bool) (settings : Settings) (source : Source σ)
    (degrees : List ℤ) (state : σ) :
    let a := attemptAll feasible settings source degrees state
    Loops.Within feasible settings source degrees
      ((settings.restarts.toNat + 1) * ((mostEdges degrees + 1) * (degrees.length + 1) + 1))
      (.start degrees state) (.ended a.outcome ⟨a.last.state, a.bounds, a.checks⟩) := by
  intro a
  have hwithin := within_countedAttempt feasible settings source degrees
    (fun s ↦ length_turns_run_le s) 0 0 0 ⟨state, [], 0⟩
  rw [countedAttempt_start, Nat.cast_zero, sub_zero] at hwithin
  exact hwithin

/-- **A sampling ends, whatever the test is.** There may be no budget, or any whole number; the
restarts may be any whole number, the nodes any number, and the draws are arbitrary. Degrees that do
not pass are refused at once. For others the loops, taken round by round, are left within a bounded
number of rounds, with a realization or because all runs have given up. There are no more runs than
one and the restarts that are allowed. A run places at most as many edges as the positive degrees
add up to, and at most one for each two nodes; at most one turn more makes draws, and in no turn
more than there are other nodes. -/
theorem sampling_ends (feasible : List ℤ → Bool) (config : Config) (source : Source σ) (state : σ)
    (degrees : List ℤ) {most : ℤ}
    (hbudget : config.budget = .null ∨ ∃ budget, config.budget.toInt? = some budget)
    (hrestarts : config.restarts.toInt? = some most) :
    let n := degrees.length
    let runs := most.toNat + 1
    let edges := min (openDemand degrees) (n * (n - 1) / 2)
    let sampling := sampleWith config feasible source state degrees
    let a := attemptAll feasible config.settings source degrees state
    (feasible degrees = false → sampling = .failed (.notRealizable degrees)) ∧
    (feasible degrees = true → sampling.HasRun ∧ sampling.asked = a.bounds ∧
      ∃ rounds ≤ runs * ((edges + 1) * (n + 1) + 1), ∃ ledger, ledger.drawn = sampling.asked ∧
        (Loops.step feasible config.settings source degrees)^[rounds] (.start degrees state)
          = .ended sampling.answer ledger) ∧
    a.runs.length ≤ runs ∧
    (∀ r ∈ a.runs, r.edges.length ≤ edges ∧ r.turns.length ≤ edges + 1
      ∧ ∀ t ∈ r.turns, t.draws ≤ n - 1) ∧
    sampling.asked.length ≤ runs * (edges + 1) * (n - 1) := by
  intro n runs edges sampling a
  have hmost : config.settings.restarts = most := Config.settings_restarts hrestarts
  have hmade : a.IsMade feasible config.settings source degrees config.settings.restarts.toNat
      state := isMade_attempt feasible config.settings source degrees _ state
  rw [hmost] at hmade
  have hrefused (hfails : feasible degrees = false) :
      sampling = .failed (.notRealizable degrees) := by
    simp only [sampling, sampleWith, hfails, Bool.not_false, if_true]
  have hfit (hpasses : feasible degrees = true) :
      sampling = sampleDegrees feasible config.settings source state degrees :=
    sampleWith_of_limits hpasses hbudget hrestarts
  have hsampling (hpasses : feasible degrees = true) : sampling
      = ⟨a.bounds, attemptEvents degrees.length config.settings.shownRestarts a, a.outcome⟩ := by
    rw [hfit hpasses, sampleDegrees, if_pos hpasses]
  refine ⟨hrefused, fun hpasses ↦ ⟨?_, ?_, ?_⟩, hmade.length_runs_le, fun r hr ↦ ?_, ?_⟩
  · rw [hfit hpasses]
    exact Sampling.hasRun_sampleDegrees hpasses
  · rw [hsampling hpasses]
  · obtain ⟨rounds, hle, hend⟩ := within_start feasible config.settings source degrees state
    rw [hmost] at hle
    rw [hsampling hpasses]
    exact ⟨rounds, hle, _, rfl, hend⟩
  · obtain ⟨s, rfl⟩ := hmade.exists_eq_run hr
    exact ⟨length_edges_run_le s, length_turns_run_le s, fun t ht ↦ Reaches.draws_le .start ht⟩
  · cases hpasses : feasible degrees with
    | false =>
      rw [hrefused hpasses]
      exact Nat.zero_le _
    | true =>
      rw [hsampling hpasses, length_bounds, Nat.mul_assoc]
      exact hmade.draws_le

/-- A test that passes the degrees at the entry and nothing else: each of three runs draws all
partners of the first pivot. -/
theorem sampling_ends_stuck :
    let test : List ℤ → Bool := fun ds ↦ ds == [1, 1, 1, 1]
    let config : Config := { budget := .null, restarts := .int 2 }
    let sampling := sampleWith config test frontSource () [1, 1, 1, 1]
    sampling.HasRun ∧ sampling.answer = .error (.exhausted (.int 0) (.int 9) (.int 2))
      ∧ sampling.asked.length ≤ (2 + 1) * (4 + 1) * 3
      ∧ ∃ rounds ≤ (2 + 1) * ((4 + 1) * 5 + 1), ∃ ledger, ledger.drawn = sampling.asked ∧
        (Loops.step test config.settings frontSource [1, 1, 1, 1])^[rounds]
          (.start [1, 1, 1, 1] ()) = .ended sampling.answer ledger := by
  intro test config sampling
  have hanswer : sampling.answer = .error (.exhausted (.int 0) (.int 9) (.int 2)) := by cbv
  obtain ⟨-, hpasses, -, -, hdraws⟩ :=
    sampling_ends test config frontSource () [1, 1, 1, 1] (Or.inl rfl) rfl
  obtain ⟨hrun, -, hrounds⟩ := hpasses rfl
  exact ⟨hrun, hanswer, hdraws, hrounds⟩

end DegreeGraph
