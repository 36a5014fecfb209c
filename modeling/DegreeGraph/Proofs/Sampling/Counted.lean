import DegreeGraph.Proofs.Sampling.Realization

/-!
# Counting along the way

The statistics of an answer are read off the runs that were made. Here the same sampler carries them
along instead: a search counts its draws, a run adds them up when a partner is found and hands its
counts on when it is abandoned, and the restarts add up what they are handed. A ledger is kept
beside it by somebody who only sees the calls, that is, the draws that are asked of the source and
the sequences that are given to the feasibility test.

Both ways of counting agree with each other and with the ledger: `countedSearch_eq` for a search,
`countedRun_eq` for a run and `countedAttempt_eq` for all runs. So no call is lost or counted twice
where a search ends, a run is abandoned or a new one begins.
-/

namespace DegreeGraph

universe u

variable {σ : Type u}

/-! ## The ledger -/

/-- The state of a source, with the calls of the source and of a test so far. -/
structure Ledger (σ : Type u) where
  state : σ
  /-- The sizes of the pools that were drawn from, in order. -/
  drawn : List ℕ
  /-- How often the test was asked. -/
  asked : ℕ

namespace Ledger

/-- A draw, which is written down. -/
def draw (source : Source σ) (last : ℕ) (l : Ledger σ) : Fin (last + 1) × Ledger σ :=
  let (k, next) := source.draw l.state last
  (k, ⟨next, l.drawn ++ [last + 1], l.asked⟩)

/-- A question to the test, which is written down. -/
def ask (feasible : List ℤ → Bool) (residual : List ℤ) (l : Ledger σ) : Bool × Ledger σ :=
  (feasible residual, { l with asked := l.asked + 1 })

end Ledger

/-! ## The sampler with its counters -/

/-- A search that counts its draws, and goes on counting the checks of its run. -/
def countedSearch (feasible : List ℤ → Bool) (settings : Settings) (source : Source σ)
    (p : Progress) (pivot draws checks : ℕ) (pool : List ℕ) (ledger : Ledger σ) :
    (Option ℕ × ℕ × ℕ) × Ledger σ :=
  match pool with
  | [] => ((none, draws, checks), ledger)
  | first :: others =>
    if settings.isUsedUp draws then ((none, draws, checks), ledger)
    else
      let (k, ledger) := ledger.draw source others.length
      let partner := (first :: others).get k
      let rest := swapRemove (first :: others) k
      if p.edges.contains (edgeOf pivot partner) then
        countedSearch feasible settings source p pivot (draws + 1) checks rest ledger
      else if settings.skipSpent && p.residual.getD partner 0 == 0 then
        countedSearch feasible settings source p pivot (draws + 1) checks rest ledger
      else
        let (passes, ledger) := ledger.ask feasible (p.lowered pivot partner)
        if passes then ((some partner, draws + 1, checks + 1), ledger)
        else countedSearch feasible settings source p pivot (draws + 1) (checks + 1) rest ledger
termination_by pool.length
decreasing_by all_goals simp [length_swapRemove]

/-- What an abandoned run hands on. -/
structure Abandoned where
  pivot : ℕ
  attempts : ℕ
  checks : ℕ

/-- A run that counts its draws and checks until it has met all demands or is abandoned. -/
def countedRun (feasible : List ℤ → Bool) (settings : Settings) (source : Source σ) (p : Progress)
    (attempts checks : ℕ) (ledger : Ledger σ) :
    Except Abandoned (List Edge × ℕ × ℕ) × Ledger σ :=
  match _h : leastPositive p.residual with
  | none => (.ok (p.edges, attempts, checks), ledger)
  | some (pivot, _) =>
    match countedSearch feasible settings source p pivot 0 checks
        (partnersOf p.residual.length pivot) ledger with
    | ((none, draws, checks), ledger) => (.error ⟨pivot, attempts + draws, checks⟩, ledger)
    | ((some partner, draws, checks), ledger) =>
      countedRun feasible settings source (p.commit pivot partner) (attempts + draws) checks ledger
termination_by openDemand p.residual
decreasing_by exact openDemand_commit_lt ‹_› partner

/-- Runs until one meets all demands or the restarts are used up, adding up what abandoned runs hand
on. -/
def countedAttempt (feasible : List ℤ → Bool) (settings : Settings) (source : Source σ)
    (degrees : List ℤ) (restarts attempts checks : ℕ) (ledger : Ledger σ) :
    Except Fault Realization × Ledger σ :=
  match countedRun feasible settings source (.start degrees) 0 0 ledger with
  | (.ok (order, drawn, checked), ledger) =>
    (.ok ⟨order, drawn + attempts, checked + checks, restarts⟩, ledger)
  | (.error run, ledger) =>
    if settings.restarts ≤ restarts then
      (.error (.exhausted (.int run.pivot) (.int (attempts + run.attempts : ℕ)) (.int restarts)),
        ledger)
    else
      countedAttempt feasible settings source degrees (restarts + 1) (attempts + run.attempts)
        (checks + run.checks) ledger
termination_by (settings.restarts - restarts).toNat

variable {feasible : List ℤ → Bool} {settings : Settings} {source : Source σ} {degrees : List ℤ}
  {p : Progress}

/-! ## A search -/

/-- How many draws of a search had the test asked. -/
def Search.checks (found : Search σ) : ℕ := found.trials.countP fun t ↦ t.verdict.isChecked

/-- The counters and the ledger after a search. -/
def Search.counted (draws checks : ℕ) (ledger : Ledger σ) (found : Search σ) :
    (Option ℕ × ℕ × ℕ) × Ledger σ :=
  ((found.partner, draws + found.trials.length, checks + found.checks),
    ⟨found.state, ledger.drawn ++ found.trials.map Trial.bound, ledger.asked + found.checks⟩)

theorem counted_of_no_trials (draws checks : ℕ) (ledger : Ledger σ) (untried : List ℕ)
    (partner : Option ℕ) : Search.counted draws checks ledger ⟨[], untried, partner, ledger.state⟩
      = ((partner, draws, checks), ledger) := by
  rw [Search.counted, Search.checks, List.countP_nil, List.map_nil, List.append_nil]
  rfl

/-- A draw that is refused is counted before the rest of its search. The ledger after the draw has
one more question if the test refused the partner. -/
theorem counted_of_refused {verdictOn : ℕ → Verdict} {draws first : ℕ} {others : List ℕ}
    {k : Fin (others.length + 1)} {ledger : Ledger σ} (after : Ledger σ) (checks one : ℕ)
    (hopen : ¬settings.isUsedUp draws = true)
    (hdraw : source.draw ledger.state others.length = (k, after.state))
    (hdrawn : after.drawn = ledger.drawn ++ [others.length + 1])
    (hasked : after.asked = ledger.asked + one) {verdict : Verdict}
    (hverdict : verdictOn (first :: others)[k] = verdict) (hrefused : verdict ≠ .accepted)
    (hone : (if verdict.isChecked then 1 else 0) = one) :
    (searchPool source settings verdictOn draws (first :: others) ledger.state).counted draws checks
        ledger
      = (searchPool source settings verdictOn (draws + 1) (swapRemove (first :: others) k)
        after.state).counted (draws + 1) (checks + one) after := by
  subst hverdict
  rw [searchPool_of_refused hopen hdraw hrefused]
  simp only [Search.counted, Search.checks, List.countP_cons, hone, hdrawn, hasked,
    List.length_cons, List.map_cons, List.append_assoc, List.singleton_append]
  rw [Nat.add_right_comm draws, Nat.add_assoc draws, Nat.add_comm _ one, Nat.add_assoc checks,
    Nat.add_assoc ledger.asked]

theorem state_of_draw {last : ℕ} {k : Fin (last + 1)} {ledger after : Ledger σ}
    (h : ledger.draw source last = (k, after)) : source.draw ledger.state last = (k, after.state)
      ∧ after.drawn = ledger.drawn ++ [last + 1] ∧ after.asked = ledger.asked := by
  obtain ⟨rfl, rfl⟩ := Prod.mk.inj h
  exact ⟨rfl, rfl, rfl⟩

theorem state_of_ask {residual : List ℤ} {passes : Bool} {ledger after : Ledger σ}
    (h : ledger.ask feasible residual = (passes, after)) : feasible residual = passes
      ∧ after = { ledger with asked := ledger.asked + 1 } := by
  obtain ⟨rfl, rfl⟩ := Prod.mk.inj h
  exact ⟨rfl, rfl⟩

/-- **A search that counts along the way counts its trials.** -/
theorem countedSearch_eq (feasible : List ℤ → Bool) (settings : Settings) (source : Source σ)
    (p : Progress) (pivot draws checks : ℕ) (pool : List ℕ) (ledger : Ledger σ) :
    countedSearch feasible settings source p pivot draws checks pool ledger
      = (searchPool source settings (judge feasible settings.skipSpent p pivot) draws pool
          ledger.state).counted draws checks ledger := by
  fun_induction countedSearch feasible settings source p pivot draws checks pool ledger with
  | case1 draws checks ledger =>
    rw [searchPool, counted_of_no_trials]
  | case2 draws checks ledger first others hused =>
    rw [searchPool, if_pos hused, counted_of_no_trials]
  | case3 draws checks ledger first others hopen k after hdraw partner rest hadjacent ih =>
    obtain ⟨hsource, hdrawn, hasked⟩ := state_of_draw hdraw
    have hverdict : judge feasible settings.skipSpent p pivot partner = .adjacent := by
      rw [judge, if_pos hadjacent]
    rw [ih]
    exact (counted_of_refused after checks 0 hopen hsource hdrawn hasked hverdict (by decide) rfl).symm
  | case4 draws checks ledger first others hopen k after hdraw partner rest hnew hspent ih =>
    obtain ⟨hsource, hdrawn, hasked⟩ := state_of_draw hdraw
    have hverdict : judge feasible settings.skipSpent p pivot partner = .spent := by
      rw [judge, if_neg hnew, if_pos hspent]
    rw [ih]
    exact (counted_of_refused after checks 0 hopen hsource hdrawn hasked hverdict (by decide) rfl).symm
  | case5 draws checks ledger first others hopen k after hdraw partner hnew hdemand last hask =>
    obtain ⟨hsource, hdrawn, hasked⟩ := state_of_draw hdraw
    obtain ⟨hpasses, rfl⟩ := state_of_ask hask
    have hverdict : judge feasible settings.skipSpent p pivot partner = .accepted := by
      rw [judge, if_neg hnew, if_neg hdemand, if_pos hpasses]
    have haccepted : judge feasible settings.skipSpent p pivot (first :: others)[k] = .accepted :=
      hverdict
    rw [searchPool_of_accepted hopen hsource haccepted]
    simp only [Search.counted, Search.checks, hdrawn, hasked, haccepted]
    rfl
  | case6 draws checks ledger first others hopen k after hdraw partner rest hnew hdemand passes last
      hask hfails ih =>
    obtain ⟨hsource, hdrawn, hasked⟩ := state_of_draw hdraw
    obtain ⟨rfl, rfl⟩ := state_of_ask hask
    have hverdict : judge feasible settings.skipSpent p pivot partner = .infeasible := by
      rw [judge, if_neg hnew, if_neg hdemand, if_neg hfails]
    rw [ih]
    exact (counted_of_refused { after with asked := after.asked + 1 } checks 1 hopen hsource hdrawn
      (congrArg Nat.succ hasked) hverdict (by decide) rfl).symm

/-! ## A run -/

/-- The outcome, the counters and the ledger after a run that began with some edges. -/
def Run.counted (edges : List Edge) (attempts checks : ℕ) (ledger : Ledger σ) (r : Run σ) :
    Except Abandoned (List Edge × ℕ × ℕ) × Ledger σ :=
  (match r.givenUp? with
    | some t => .error ⟨t.pivot, attempts + r.draws, checks + r.checks⟩
    | none => .ok (edges ++ r.edges, attempts + r.draws, checks + r.checks),
    ⟨r.state, ledger.drawn ++ r.bounds, ledger.asked + r.checks⟩)

section Turn

variable {pivot : ℕ} (attempts checks : ℕ) (ledger : Ledger σ)

theorem countedRun_met (h : selectPivot p.residual = none) :
    countedRun feasible settings source p attempts checks ledger
      = (.ok (p.edges, attempts, checks), ledger) := by
  have hleast : leastPositive p.residual = none := by simpa [selectPivot] using h
  rw [countedRun]
  split
  · rfl
  · simp_all

theorem countedRun_stuck (h : selectPivot p.residual = some pivot)
    (hnone : (search feasible settings source p pivot ledger.state).partner = none) :
    let found := search feasible settings source p pivot ledger.state
    countedRun feasible settings source p attempts checks ledger
      = (.error ⟨pivot, attempts + found.trials.length, checks + found.checks⟩,
        (found.counted 0 checks ledger).2) := by
  have hleast := leastPositive_eq_some_iff.mpr ⟨selectPivot_eq_some_iff.mp h, rfl⟩
  rw [countedRun]
  split
  · simp_all
  · rename_i v d heq
    obtain ⟨rfl, rfl⟩ := Prod.mk.inj (Option.some.inj (hleast.symm.trans heq))
    rw [countedSearch_eq, ← search]
    simp only [Search.counted, hnone, Nat.zero_add]

theorem countedRun_turn {partner : ℕ} (h : selectPivot p.residual = some pivot)
    (hsome : (search feasible settings source p pivot ledger.state).partner = some partner) :
    let found := search feasible settings source p pivot ledger.state
    countedRun feasible settings source p attempts checks ledger
      = countedRun feasible settings source (p.commit pivot partner)
        (attempts + found.trials.length) (checks + found.checks)
        (found.counted 0 checks ledger).2 := by
  have hleast := leastPositive_eq_some_iff.mpr ⟨selectPivot_eq_some_iff.mp h, rfl⟩
  rw [countedRun]
  split
  · simp_all
  · rename_i v d heq
    obtain ⟨rfl, rfl⟩ := Prod.mk.inj (Option.some.inj (hleast.symm.trans heq))
    rw [countedSearch_eq, ← search]
    simp only [Search.counted, hsome, Nat.zero_add]

end Turn

/-- A turn that finds a partner is counted before the rest of its run. -/
theorem counted_turn {pivot partner : ℕ} (attempts checks : ℕ) (ledger : Ledger σ)
    (h : selectPivot p.residual = some pivot)
    (hsome : (search feasible settings source p pivot ledger.state).partner = some partner) :
    let found := search feasible settings source p pivot ledger.state
    (runFrom feasible settings source p ledger.state).counted p.edges attempts checks ledger
      = (runFrom feasible settings source (p.commit pivot partner) found.state).counted
        (p.commit pivot partner).edges (attempts + found.trials.length) (checks + found.checks)
        (found.counted 0 checks ledger).2 := by
  intro found
  let later := runFrom feasible settings source (p.commit pivot partner) found.state
  have hturn := runFrom_turn h hsome
  have hdraws : (runFrom feasible settings source p ledger.state).draws
      = found.trials.length + later.draws := by
    rw [hturn]
    rfl
  have hchecks : (runFrom feasible settings source p ledger.state).checks
      = found.checks + later.checks := by
    rw [hturn]
    rfl
  have hbounds : (runFrom feasible settings source p ledger.state).bounds
      = found.trials.map Trial.bound ++ later.bounds := by
    rw [hturn]
    rfl
  have hedges : p.edges ++ (runFrom feasible settings source p ledger.state).edges
      = (p.commit pivot partner).edges ++ later.edges := by
    rw [edges_runFrom_turn h hsome]
    exact (List.append_assoc p.edges [edgeOf pivot partner] later.edges).symm
  have hstate : (runFrom feasible settings source p ledger.state).state = later.state := by
    rw [hturn]
  rw [Run.counted, Run.counted, givenUp?_runFrom_turn h hsome, hdraws, hchecks, hbounds, hedges,
    hstate]
  simp only [Search.counted, List.append_assoc, Nat.add_assoc, later, found]

/-- **A run that counts along the way counts its turns.** -/
theorem countedRun_eq (feasible : List ℤ → Bool) (settings : Settings) (source : Source σ)
    (p : Progress) (s : σ) : ∀ (attempts checks : ℕ) (ledger : Ledger σ), ledger.state = s →
      countedRun feasible settings source p attempts checks ledger
        = (runFrom feasible settings source p s).counted p.edges attempts checks ledger := by
  induction p, s using run_induction feasible settings source with
  | met p s hpivot =>
    rintro attempts checks ledger rfl
    rw [countedRun_met attempts checks ledger hpivot, runFrom_met hpivot]
    simp [Run.counted, Run.givenUp?, Run.edges, Run.draws, Run.checks, Run.bounds]
  | stuck p s pivot hpivot hnone =>
    rintro attempts checks ledger rfl
    rw [countedRun_stuck attempts checks ledger hpivot hnone, runFrom_stuck hpivot hnone]
    simp [Run.counted, Run.givenUp?, Run.draws, Run.checks, Run.bounds, turnAt, hnone, Turn.draws,
      Turn.checks, Search.checks, Search.counted]
  | turn p s pivot partner hpivot hfound ih =>
    rintro attempts checks ledger rfl
    rw [countedRun_turn attempts checks ledger hpivot hfound,
      counted_turn attempts checks ledger hpivot hfound]
    exact ih _ _ _ rfl

/-! ## All runs -/

/-- The outcome, the counters and the ledger after runs that began with some counts. -/
def Attempt.counted (restarts attempts checks : ℕ) (ledger : Ledger σ) (a : Attempt σ) :
    Except Fault Realization × Ledger σ :=
  (match a.last.givenUp? with
    | some t => .error (.exhausted (.int t.pivot) (.int (attempts + a.draws : ℕ))
        (.int (restarts + a.abandoned.length : ℕ)))
    | none => .ok ⟨a.last.edges, attempts + a.draws, checks + a.checks,
        restarts + a.abandoned.length⟩,
    ⟨a.last.state, ledger.drawn ++ a.bounds, ledger.asked + a.checks⟩)

/-- An abandoned run is counted before the runs after it. -/
theorem counted_abandoned (restarts attempts checks : ℕ) (ledger : Ledger σ) (first : Run σ)
    (later : Attempt σ) :
    Attempt.counted restarts attempts checks ledger
        { later with abandoned := first :: later.abandoned }
      = later.counted (restarts + 1) (attempts + first.draws) (checks + first.checks)
        ⟨first.state, ledger.drawn ++ first.bounds, ledger.asked + first.checks⟩ := by
  have hdraws : Attempt.draws { later with abandoned := first :: later.abandoned }
      = first.draws + later.draws := rfl
  have hchecks : Attempt.checks { later with abandoned := first :: later.abandoned }
      = first.checks + later.checks := rfl
  have hbounds : Attempt.bounds { later with abandoned := first :: later.abandoned }
      = first.bounds ++ later.bounds := rfl
  rw [Attempt.counted, Attempt.counted, hdraws, hchecks, hbounds]
  simp only [List.length_cons, List.append_assoc, Nat.add_assoc, Nat.add_comm 1]

theorem counted_single (restarts attempts checks : ℕ) (ledger : Ledger σ) (r : Run σ) :
    Attempt.counted restarts attempts checks ledger ⟨[], r⟩
      = (match r.givenUp? with
        | some t => .error (.exhausted (.int t.pivot) (.int (attempts + r.draws : ℕ))
            (.int restarts))
        | none => .ok ⟨r.edges, attempts + r.draws, checks + r.checks, restarts⟩,
        ⟨r.state, ledger.drawn ++ r.bounds, ledger.asked + r.checks⟩) := by
  simp [Attempt.counted, Attempt.draws, Attempt.checks, Attempt.bounds, Attempt.runs]

theorem run_of_countedRun_ok {ledger after : Ledger σ} {order : List Edge} {drawn checked : ℕ}
    (h : countedRun feasible settings source (.start degrees) 0 0 ledger
      = (.ok (order, drawn, checked), after)) :
    let r := run feasible settings source degrees ledger.state
    r.givenUp? = none ∧ order = r.edges ∧ drawn = r.draws ∧ checked = r.checks
      ∧ after = ⟨r.state, ledger.drawn ++ r.bounds, ledger.asked + r.checks⟩ := by
  rw [countedRun_eq feasible settings source _ _ 0 0 ledger rfl, ← run, Run.counted] at h
  cases hgiven : (run feasible settings source degrees ledger.state).givenUp? with
  | some t => simp [hgiven] at h
  | none =>
    simp only [hgiven, Prod.mk.injEq, Except.ok.injEq, Progress.start, List.nil_append,
      Nat.zero_add] at h
    obtain ⟨⟨rfl, rfl, rfl⟩, rfl⟩ := h
    exact ⟨hgiven, rfl, rfl, rfl, rfl⟩

theorem run_of_countedRun_error {ledger after : Ledger σ} {abandoned : Abandoned}
    (h : countedRun feasible settings source (.start degrees) 0 0 ledger
      = (.error abandoned, after)) :
    let r := run feasible settings source degrees ledger.state
    (∃ t, r.givenUp? = some t ∧ abandoned = ⟨t.pivot, r.draws, r.checks⟩)
      ∧ after = ⟨r.state, ledger.drawn ++ r.bounds, ledger.asked + r.checks⟩ := by
  rw [countedRun_eq feasible settings source _ _ 0 0 ledger rfl, ← run, Run.counted] at h
  cases hgiven : (run feasible settings source degrees ledger.state).givenUp? with
  | none => simp [hgiven] at h
  | some t =>
    simp only [hgiven, Prod.mk.injEq, Except.error.injEq, Nat.zero_add] at h
    obtain ⟨rfl, rfl⟩ := h
    exact ⟨⟨t, hgiven, rfl⟩, rfl⟩

/-- **The sampler that counts along the way is the sampler.** -/
theorem countedAttempt_eq (feasible : List ℤ → Bool) (settings : Settings) (source : Source σ)
    (degrees : List ℤ) (restarts attempts checks : ℕ) (ledger : Ledger σ) :
    countedAttempt feasible settings source degrees restarts attempts checks ledger
      = (attempt feasible settings source degrees (settings.restarts - restarts).toNat
          ledger.state).counted restarts attempts checks ledger := by
  fun_induction countedAttempt feasible settings source degrees restarts attempts checks ledger with
  | case1 restarts attempts checks ledger order drawn checked after hrun =>
    obtain ⟨hdone, rfl, rfl, rfl, rfl⟩ := run_of_countedRun_ok hrun
    rw [attempt_eq_of_givenUp?_eq_none hdone, counted_single, hdone]
    simp only [Nat.add_comm]
  | case2 restarts attempts checks ledger abandoned after hrun hused =>
    obtain ⟨⟨t, hgiven, rfl⟩, rfl⟩ := run_of_countedRun_error hrun
    have hleft : (settings.restarts - restarts).toNat = 0 := by omega
    rw [hleft, attempt, counted_single, hgiven]
  | case3 restarts attempts checks ledger abandoned after hrun hleft ih =>
    obtain ⟨⟨t, hgiven, rfl⟩, rfl⟩ := run_of_countedRun_error hrun
    have hmore : (settings.restarts - restarts).toNat
        = (settings.restarts - (restarts + 1 : ℕ)).toNat + 1 := by omega
    rw [ih, hmore, attempt, hgiven, Option.isSome_some, if_pos rfl, counted_abandoned]

theorem length_bounds (a : Attempt σ) : a.bounds.length = a.draws := by
  have hrun (r : Run σ) : r.bounds.length = r.draws := by
    rw [Run.bounds, List.length_flatMap, Run.draws, total_eq_sum]
    refine congrArg List.sum (List.map_congr_left fun t _ ↦ ?_)
    rw [List.length_map, Turn.draws]
  rw [Attempt.bounds, List.length_flatMap, Attempt.draws, total_eq_sum]
  exact congrArg List.sum (List.map_congr_left fun r _ ↦ hrun r)

/-- Counted from nothing on, the answer is that of the sampler, and the ledger holds all its
calls. -/
theorem countedAttempt_start (feasible : List ℤ → Bool) (settings : Settings) (source : Source σ)
    (degrees : List ℤ) (state : σ) :
    let a := attemptAll feasible settings source degrees state
    countedAttempt feasible settings source degrees 0 0 0 ⟨state, [], 0⟩
      = (a.outcome, ⟨a.last.state, a.bounds, a.checks⟩) := by
  intro a
  have ha : attempt feasible settings source degrees (settings.restarts - (0 : ℕ)).toNat state
      = a := by
    rw [Nat.cast_zero, sub_zero]
    rfl
  rw [countedAttempt_eq, ha, Attempt.counted, Attempt.outcome]
  cases a.last.givenUp? <;> simp

end DegreeGraph
