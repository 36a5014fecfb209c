import DegreeGraph.Proofs.Sampling.Counted

/-!
# The sampler round by round

The sampler has three loops within each other: draws within a search, turns within a run, and runs.
None of them carries a bound, and two of them are left from within only. Here the loops are taken
apart into rounds that call nothing but the source and the test. A round chooses a pivot, or draws
one partner, or finds that there is nothing left to draw; it goes back to the head of one of the
loops or leaves them with an answer. That a recursion is defined says that its loops end; that they
end with the answer of the sampler, and how soon, is said by `within_countedSearch`,
`within_countedRun` and `within_countedAttempt`.
-/

namespace DegreeGraph

universe u

variable {σ : Type u}

/-! ## Where the loops stand -/

/-- What the loop over the runs remembers of abandoned runs. -/
structure Carried where
  restarts : ℕ := 0
  attempts : ℕ := 0
  checks : ℕ := 0

/-- Where the loops stand, with the counters that are in use there. -/
inductive Loops (σ : Type u) where
  /-- A pivot is to be chosen. -/
  | choosing (before : Carried) (p : Progress) (attempts checks : ℕ) (ledger : Ledger σ)
  /-- A partner of the pivot is to be drawn. -/
  | searching (before : Carried) (p : Progress) (attempts pivot draws checks : ℕ) (pool : List ℕ)
    (ledger : Ledger σ)
  /-- The loops have been left. -/
  | ended (answer : Except Fault Realization) (ledger : Ledger σ)

namespace Loops

/-- The first run is about to begin. -/
def start (degrees : List ℤ) (state : σ) : Loops σ :=
  .choosing {} (.start degrees) 0 0 ⟨state, [], 0⟩

/-- A run is abandoned for another one, or the restarts are used up. -/
def abandon (settings : Settings) (degrees : List ℤ) (before : Carried) (run : Abandoned)
    (ledger : Ledger σ) : Loops σ :=
  if settings.restarts ≤ before.restarts then
    .ended (.error (.exhausted (.int run.pivot) (.int (before.attempts + run.attempts : ℕ))
      (.int before.restarts))) ledger
  else
    .choosing ⟨before.restarts + 1, before.attempts + run.attempts, before.checks + run.checks⟩
      (.start degrees) 0 0 ledger

variable (feasible : List ℤ → Bool) (settings : Settings) (source : Source σ) (degrees : List ℤ)

/-- One round. Loops that have been left stay as they are. -/
def step : Loops σ → Loops σ
  | .choosing before p attempts checks ledger =>
    match selectPivot p.residual with
    | none =>
      .ended (.ok ⟨p.edges, attempts + before.attempts, checks + before.checks, before.restarts⟩)
        ledger
    | some pivot =>
      .searching before p attempts pivot 0 checks (partnersOf p.residual.length pivot) ledger
  | .searching before _ attempts pivot draws checks [] ledger =>
    abandon settings degrees before ⟨pivot, attempts + draws, checks⟩ ledger
  | .searching before p attempts pivot draws checks (first :: others) ledger =>
    if settings.isUsedUp draws then
      abandon settings degrees before ⟨pivot, attempts + draws, checks⟩ ledger
    else
      let (k, ledger) := ledger.draw source others.length
      let partner := (first :: others).get k
      let rest := swapRemove (first :: others) k
      if p.edges.contains (edgeOf pivot partner) then
        .searching before p attempts pivot (draws + 1) checks rest ledger
      else if settings.skipSpent && p.residual.getD partner 0 == 0 then
        .searching before p attempts pivot (draws + 1) checks rest ledger
      else
        let (passes, ledger) := ledger.ask feasible (p.lowered pivot partner)
        if passes then
          .choosing before (p.commit pivot partner) (attempts + (draws + 1)) (checks + 1) ledger
        else .searching before p attempts pivot (draws + 1) (checks + 1) rest ledger
  | .ended answer ledger => .ended answer ledger

/-- The loops get from one place to another in a number of rounds at most. -/
def Within (most : ℕ) (l l' : Loops σ) : Prop :=
  ∃ rounds ≤ most, (step feasible settings source degrees)^[rounds] l = l'

namespace Within

variable {feasible settings source degrees} {most more : ℕ} {l l' l'' : Loops σ}

theorem head (h : Within feasible settings source degrees most
    (step feasible settings source degrees l) l') :
    Within feasible settings source degrees (most + 1) l l' := by
  obtain ⟨rounds, hle, heq⟩ := h
  exact ⟨rounds + 1, Nat.succ_le_succ hle, heq⟩

theorem trans (h : Within feasible settings source degrees most l l')
    (h' : Within feasible settings source degrees more l' l'') :
    Within feasible settings source degrees (most + more) l l'' := by
  obtain ⟨rounds, hle, rfl⟩ := h
  obtain ⟨rounds', hle', rfl⟩ := h'
  refine ⟨rounds' + rounds, by omega, ?_⟩
  rw [Function.iterate_add_apply]

theorem mono (h : Within feasible settings source degrees most l l') (hle : most ≤ more) :
    Within feasible settings source degrees more l l' := by
  obtain ⟨rounds, hrounds, heq⟩ := h
  exact ⟨rounds, hrounds.trans hle, heq⟩

theorem single (h : step feasible settings source degrees l = l') :
    Within feasible settings source degrees 1 l l' := ⟨1, le_rfl, h⟩

end Within

end Loops

open Loops

variable (feasible : List ℤ → Bool) (settings : Settings) (source : Source σ) (degrees : List ℤ)
  (before : Carried)

/-! ## The rounds of a search -/

/-- Where the loops stand after a search. -/
def Loops.afterSearch (settings : Settings) (degrees : List ℤ) (before : Carried) (p : Progress)
    (attempts pivot : ℕ) : (Option ℕ × ℕ × ℕ) × Ledger σ → Loops σ
  | ((none, draws, checks), ledger) =>
    abandon settings degrees before ⟨pivot, attempts + draws, checks⟩ ledger
  | ((some partner, draws, checks), ledger) =>
    .choosing before (p.commit pivot partner) (attempts + draws) checks ledger

/-- **A search takes at most one round more than its pool has partners.** Each draw shortens the
pool. -/
theorem within_countedSearch (p : Progress) (attempts pivot draws checks : ℕ) (pool : List ℕ)
    (ledger : Ledger σ) :
    Within feasible settings source degrees (pool.length + 1)
      (.searching before p attempts pivot draws checks pool ledger)
      (afterSearch settings degrees before p attempts pivot
        (countedSearch feasible settings source p pivot draws checks pool ledger)) := by
  have hshort (first : ℕ) (others : List ℕ) (k : ℕ) :
      (swapRemove (first :: others) k).length + 1 = (first :: others).length :=
    congrArg Nat.succ (length_swapRemove (first :: others) k)
  fun_induction countedSearch feasible settings source p pivot draws checks pool ledger with
  | case1 draws checks ledger => exact .single rfl
  | case2 draws checks ledger first others hused =>
    refine (Within.single ?_).mono (Nat.succ_pos _)
    rw [step, if_pos hused]
    rfl
  | case3 draws checks ledger first others hopen k after hdraw partner rest hadjacent ih =>
    apply Within.head
    rw [step, if_neg hopen, ← hshort first others k]
    simp only [hdraw]
    rw [if_pos hadjacent]
    exact ih
  | case4 draws checks ledger first others hopen k after hdraw partner rest hnew hspent ih =>
    apply Within.head
    rw [step, if_neg hopen, ← hshort first others k]
    simp only [hdraw]
    rw [if_neg hnew, if_pos hspent]
    exact ih
  | case5 draws checks ledger first others hopen k after hdraw partner hnew hdemand last hask =>
    refine (Within.single ?_).mono (Nat.succ_pos _)
    rw [step, if_neg hopen]
    simp only [hdraw]
    have hpasses : after.ask feasible (p.lowered pivot ((first :: others).get k)) = (true, last) := hask
    rw [if_neg hnew, if_neg hdemand, hpasses]
    rfl
  | case6 draws checks ledger first others hopen k after hdraw partner rest hnew hdemand passes last
      hask hfails ih =>
    apply Within.head
    rw [step, if_neg hopen, ← hshort first others k]
    simp only [hdraw]
    have hpasses : after.ask feasible (p.lowered pivot ((first :: others).get k)) = (passes, last) := hask
    rw [if_neg hnew, if_neg hdemand, hpasses]
    simp only
    rw [if_neg hfails]
    exact ih

/-! ## The rounds of a run -/

/-- Where the loops stand after a run. -/
def Loops.afterRun (settings : Settings) (degrees : List ℤ) (before : Carried) :
    Except Abandoned (List Edge × ℕ × ℕ) × Ledger σ → Loops σ
  | (.error run, ledger) => abandon settings degrees before run ledger
  | (.ok (order, attempts, checks), ledger) =>
    .ended (.ok ⟨order, attempts + before.attempts, checks + before.checks, before.restarts⟩) ledger

/-- A turn takes at most one round more than there are nodes: its pivot is chosen, draws the other
nodes, and finds its pool empty. -/
theorem within_turn {p : Progress} {pivot : ℕ} (attempts checks : ℕ) (ledger : Ledger σ)
    (hpivot : selectPivot p.residual = some pivot) :
    Within feasible settings source degrees (p.residual.length + 1)
      (.choosing before p attempts checks ledger)
      (afterSearch settings degrees before p attempts pivot
        ((search feasible settings source p pivot ledger.state).counted 0 checks ledger)) := by
  have hlt := (selectPivot_eq_some_iff.mp hpivot).lt_length
  have hlength : (partnersOf p.residual.length pivot).length + 1 = p.residual.length := by
    rw [length_partnersOf hlt]
    omega
  apply Within.head
  rw [step, hpivot, search, ← countedSearch_eq]
  have hsearch := within_countedSearch feasible settings source degrees before p attempts pivot 0
    checks (partnersOf p.residual.length pivot) ledger
  rwa [hlength] at hsearch

/-- **A run takes one round to find that it is over, and for each turn at most one more than there
are nodes.** -/
theorem within_countedRun (p : Progress) (s : σ) :
    ∀ (attempts checks : ℕ) (ledger : Ledger σ), ledger.state = s →
      Within feasible settings source degrees
        ((runFrom feasible settings source p s).turns.length * (p.residual.length + 1) + 1)
        (.choosing before p attempts checks ledger)
        (afterRun settings degrees before
          (countedRun feasible settings source p attempts checks ledger)) := by
  induction p, s using run_induction feasible settings source with
  | met p s hpivot =>
    rintro attempts checks ledger rfl
    refine (Within.single ?_).mono (Nat.succ_pos _)
    rw [step, hpivot, countedRun_met attempts checks ledger hpivot]
    rfl
  | stuck p s pivot hpivot hnone =>
    rintro attempts checks ledger rfl
    have hturn := within_turn feasible settings source degrees before attempts checks ledger hpivot
    rw [countedRun_stuck attempts checks ledger hpivot hnone, runFrom_stuck hpivot hnone]
    simp only [Search.counted, hnone, afterSearch, Nat.zero_add] at hturn ⊢
    apply hturn.mono
    rw [List.length_singleton, Nat.one_mul]
    exact Nat.le_succ _
  | turn p s pivot partner hpivot hfound ih =>
    rintro attempts checks ledger rfl
    have hturn := within_turn feasible settings source degrees before attempts checks ledger hpivot
    have hlater := ih
      (attempts + (search feasible settings source p pivot ledger.state).trials.length)
      (checks + (search feasible settings source p pivot ledger.state).checks)
      ((search feasible settings source p pivot ledger.state).counted 0 checks ledger).2 rfl
    rw [countedRun_turn attempts checks ledger hpivot hfound, runFrom_turn hpivot hfound]
    simp only [Search.counted, hfound, afterSearch, Nat.zero_add] at hturn hlater ⊢
    refine (hturn.trans hlater).mono ?_
    rw [Progress.commit, length_lowered, List.length_cons, Nat.succ_mul]
    omega

/-! ## The rounds of all runs -/

/-- **If no run has more than a number of turns, all runs together take at most as many rounds as
one such run, times the runs that are allowed.** -/
theorem within_countedAttempt {turns : ℕ}
    (hturns : ∀ s, (run feasible settings source degrees s).turns.length ≤ turns)
    (restarts attempts checks : ℕ) (ledger : Ledger σ) :
    let told := countedAttempt feasible settings source degrees restarts attempts checks ledger
    Within feasible settings source degrees
      (((settings.restarts - restarts).toNat + 1) * (turns * (degrees.length + 1) + 1))
      (.choosing ⟨restarts, attempts, checks⟩ (.start degrees) 0 0 ledger)
      (.ended told.1 told.2) := by
  have hrun (before : Carried) (ledger : Ledger σ) :
      Within feasible settings source degrees (turns * (degrees.length + 1) + 1)
        (.choosing before (.start degrees) 0 0 ledger)
        (afterRun settings degrees before
          (countedRun feasible settings source (.start degrees) 0 0 ledger)) := by
    have hfirst := within_countedRun feasible settings source degrees before (.start degrees)
      ledger.state 0 0 ledger rfl
    apply hfirst.mono
    exact Nat.succ_le_succ (Nat.mul_le_mul_right _ (hturns ledger.state))
  fun_induction countedAttempt feasible settings source degrees restarts attempts checks ledger with
  | case1 restarts attempts checks ledger order drawn checked after heq =>
    have hfirst := hrun ⟨restarts, attempts, checks⟩ ledger
    rw [heq] at hfirst
    exact hfirst.mono (Nat.le_mul_of_pos_left _ (Nat.succ_pos _))
  | case2 restarts attempts checks ledger abandoned after heq hused =>
    have hfirst := hrun ⟨restarts, attempts, checks⟩ ledger
    rw [heq, afterRun, abandon, if_pos hused] at hfirst
    exact hfirst.mono (Nat.le_mul_of_pos_left _ (Nat.succ_pos _))
  | case3 restarts attempts checks ledger abandoned after heq hleft ih =>
    have hfirst := hrun ⟨restarts, attempts, checks⟩ ledger
    rw [heq, afterRun, abandon, if_neg hleft] at hfirst
    have hmore : (settings.restarts - restarts).toNat
        = (settings.restarts - (restarts + 1 : ℕ)).toNat + 1 := by omega
    refine (hfirst.trans ih).mono (le_of_eq ?_)
    rw [hmore, Nat.succ_mul (_ + 1), Nat.add_comm]

end DegreeGraph
