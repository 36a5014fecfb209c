import DegreeGraph.Sampling.Run
import DegreeGraph.Proofs.Sampling.Pivot
import DegreeGraph.Proofs.Sampling.Search

/-!
# Runs, turn by turn

`Reaches` says where a run can stand between two turns, together with the state of the source. It
adds nothing to the run: what is still to come from such a place is the rest of the run
(`Reaches.exists_earlier`), and every turn of the run is made at such a place
(`Reaches.exists_of_mem_turns`). So a property of one turn, proved at every place that is reached,
is a property of the run.
-/

namespace DegreeGraph

universe u

variable {σ : Type u} {feasible : List ℤ → Bool} {settings : Settings} {source : Source σ}
  {p₀ p : Progress} {s₀ s : σ} {pivot partner : ℕ}

/-! ## One turn -/

/-- The turn of a pivot. -/
def turnAt (feasible : List ℤ → Bool) (settings : Settings) (source : Source σ) (p : Progress)
    (s : σ) (pivot : ℕ) : Turn :=
  let found := search feasible settings source p pivot s
  ⟨pivot, p.residual.getD pivot 0, found.trials, found.untried, found.partner⟩

theorem runFrom_met (h : selectPivot p.residual = none) :
    runFrom feasible settings source p s = ⟨[], s⟩ := by
  have hleast : leastPositive p.residual = none := by simpa [selectPivot] using h
  rw [runFrom]
  split
  · rfl
  · simp_all

theorem runFrom_stuck (h : selectPivot p.residual = some pivot)
    (hnone : (search feasible settings source p pivot s).partner = none) :
    runFrom feasible settings source p s = ⟨[turnAt feasible settings source p s pivot],
      (search feasible settings source p pivot s).state⟩ := by
  have hleast := leastPositive_eq_some_iff.mpr ⟨selectPivot_eq_some_iff.mp h, rfl⟩
  rw [runFrom]
  split
  · simp_all
  · rename_i v d heq
    obtain ⟨rfl, rfl⟩ := Prod.mk.inj (Option.some.inj (hleast.symm.trans heq))
    simp only [hnone, turnAt]

theorem runFrom_turn (h : selectPivot p.residual = some pivot)
    (hsome : (search feasible settings source p pivot s).partner = some partner) :
    runFrom feasible settings source p s
      = ⟨turnAt feasible settings source p s pivot
          :: (runFrom feasible settings source (p.commit pivot partner)
            (search feasible settings source p pivot s).state).turns,
        (runFrom feasible settings source (p.commit pivot partner)
          (search feasible settings source p pivot s).state).state⟩ := by
  have hleast := leastPositive_eq_some_iff.mpr ⟨selectPivot_eq_some_iff.mp h, rfl⟩
  rw [runFrom]
  split
  · simp_all
  · rename_i v d heq
    obtain ⟨rfl, rfl⟩ := Prod.mk.inj (Option.some.inj (hleast.symm.trans heq))
    simp only [hsome, turnAt]

theorem edges_runFrom_turn (h : selectPivot p.residual = some pivot)
    (hsome : (search feasible settings source p pivot s).partner = some partner) :
    (runFrom feasible settings source p s).edges = edgeOf pivot partner
      :: (runFrom feasible settings source (p.commit pivot partner)
        (search feasible settings source p pivot s).state).edges := by
  rw [runFrom_turn h hsome]
  simp [Run.edges, turnAt, Turn.edge?, hsome]

/-- A turn that places an edge is none at which the run gives up. -/
theorem givenUp?_runFrom_turn (h : selectPivot p.residual = some pivot)
    (hsome : (search feasible settings source p pivot s).partner = some partner) :
    (runFrom feasible settings source p s).givenUp?
      = (runFrom feasible settings source (p.commit pivot partner)
        (search feasible settings source p pivot s).state).givenUp? := by
  rw [runFrom_turn h hsome]
  simp [Run.givenUp?, turnAt, hsome]

/-- A run is followed by following its turns: nothing is asked for any more, or a search fails, or
a turn places an edge and the run goes on. -/
theorem run_induction (feasible : List ℤ → Bool) (settings : Settings) (source : Source σ)
    {motive : Progress → σ → Prop}
    (met : ∀ p s, selectPivot p.residual = none → motive p s)
    (stuck : ∀ p s pivot, selectPivot p.residual = some pivot →
      (search feasible settings source p pivot s).partner = none → motive p s)
    (turn : ∀ p s pivot partner, selectPivot p.residual = some pivot →
      (search feasible settings source p pivot s).partner = some partner →
      motive (p.commit pivot partner) (search feasible settings source p pivot s).state →
      motive p s) (p : Progress) (s : σ) : motive p s := by
  induction hm : openDemand p.residual using Nat.strong_induction_on generalizing p s with
  | _ m ih =>
    -- The measure of the run itself: a turn lowers the sum of the positive demands.
    subst hm
    cases hpivot : selectPivot p.residual with
    | none => exact met p s hpivot
    | some pivot =>
      cases hfound : (search feasible settings source p pivot s).partner with
      | none => exact stuck p s pivot hpivot hfound
      | some partner =>
        have hleast := leastPositive_eq_some_iff.mpr ⟨selectPivot_eq_some_iff.mp hpivot, rfl⟩
        exact turn p s pivot partner hpivot hfound
          (ih _ (openDemand_commit_lt hleast partner) _ _ rfl)

/-! ## Where a run can stand -/

/-- From one place a run gets to another by turns that place edges. -/
inductive Reaches (feasible : List ℤ → Bool) (settings : Settings) (source : Source σ)
    (p₀ : Progress) (s₀ : σ) : Progress → σ → Prop
  | start : Reaches feasible settings source p₀ s₀ p₀ s₀
  | turn {p : Progress} {s : σ} {pivot partner : ℕ} :
    Reaches feasible settings source p₀ s₀ p s → selectPivot p.residual = some pivot →
    (search feasible settings source p pivot s).partner = some partner →
    Reaches feasible settings source p₀ s₀ (p.commit pivot partner)
      (search feasible settings source p pivot s).state

namespace Reaches

/-- What is to come from a place that a run reaches is the rest of the run. -/
theorem exists_earlier (h : Reaches feasible settings source p₀ s₀ p s) :
    ∃ earlier : List Turn,
      (runFrom feasible settings source p₀ s₀).turns
        = earlier ++ (runFrom feasible settings source p s).turns
      ∧ (runFrom feasible settings source p₀ s₀).state
        = (runFrom feasible settings source p s).state
      ∧ p.edges = p₀.edges ++ earlier.filterMap Turn.edge? := by
  induction h with
  | start => exact ⟨[], rfl, rfl, (List.append_nil _).symm⟩
  | @turn p s pivot partner _ hpivot hfound ih =>
    obtain ⟨earlier, hturns, hstate, hedges⟩ := ih
    refine ⟨earlier ++ [turnAt feasible settings source p s pivot], ?_, ?_, ?_⟩
    · rw [hturns, runFrom_turn hpivot hfound, List.append_assoc, List.singleton_append]
    · rw [hstate, runFrom_turn hpivot hfound]
    · have hedge : (turnAt feasible settings source p s pivot).edge?
          = some (edgeOf pivot partner) := by
        rw [turnAt, Turn.edge?, hfound, Option.map_some]
      rw [Progress.commit, hedges, List.filterMap_append, List.append_assoc]
      simp [hedge]

/-- Every turn that is to come is made at a place that the run reaches. -/
theorem exists_of_mem_turns (h : Reaches feasible settings source p₀ s₀ p s) {t : Turn}
    (ht : t ∈ (runFrom feasible settings source p s).turns) :
    ∃ q u, Reaches feasible settings source p₀ s₀ q u ∧ selectPivot q.residual = some t.pivot
      ∧ t = turnAt feasible settings source q u t.pivot := by
  induction p, s using run_induction feasible settings source with
  | met p s hpivot =>
    rw [runFrom_met hpivot] at ht
    exact absurd ht List.not_mem_nil
  | stuck p s pivot hpivot hnone =>
    rw [runFrom_stuck hpivot hnone] at ht
    obtain rfl := List.mem_singleton.mp ht
    exact ⟨p, s, h, hpivot, rfl⟩
  | turn p s pivot partner hpivot hfound ih =>
    rw [runFrom_turn hpivot hfound] at ht
    rcases List.mem_cons.mp ht with rfl | ht
    · exact ⟨p, s, h, hpivot, rfl⟩
    · exact ih (h.turn hpivot hfound) ht

/-- The run ends at a place that it reaches: there nothing is asked for any more, or a search
fails. -/
theorem exists_end (h : Reaches feasible settings source p₀ s₀ p s) :
    ∃ q u, Reaches feasible settings source p₀ s₀ q u
      ∧ q.edges = p.edges ++ (runFrom feasible settings source p s).edges
      ∧ ∀ pivot, selectPivot q.residual = some pivot →
        (search feasible settings source q pivot u).partner = none := by
  induction p, s using run_induction feasible settings source with
  | met p s hpivot =>
    refine ⟨p, s, h, ?_, fun pivot hp ↦ absurd (hpivot.symm.trans hp) (Option.some_ne_none _).symm⟩
    rw [runFrom_met hpivot]
    exact (List.append_nil _).symm
  | stuck p s pivot hpivot hnone =>
    refine ⟨p, s, h, ?_, fun v hv ↦ ?_⟩
    · rw [runFrom_stuck hpivot hnone]
      simp [Run.edges, turnAt, Turn.edge?, hnone]
    · obtain rfl := Option.some.inj (hpivot.symm.trans hv)
      exact hnone
  | turn p s pivot partner hpivot hfound ih =>
    obtain ⟨q, u, hq, hedges, hend⟩ := ih (h.turn hpivot hfound)
    refine ⟨q, u, hq, ?_, hend⟩
    rw [hedges, edges_runFrom_turn hpivot hfound, Progress.commit, List.append_assoc,
      List.singleton_append]

end Reaches

end DegreeGraph
