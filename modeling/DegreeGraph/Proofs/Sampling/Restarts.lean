import DegreeGraph.Proofs.Sampling.AnyTest
import DegreeGraph.Proofs.Sampling.Counted

/-!
# Restarts and statistics

A run that gives up is abandoned for another one from the start, which takes up the source where the
abandoned run left it; nothing else is handed on but counts. `Attempt.IsMade` says how the runs of
an attempt follow one another and how many there can be. So the run that succeeds is the run that a
fresh caller would have made with the source in that state (`run_congr`).

What is reported about all runs is exact: the sampler that carries its counters along comes to the
same answer, and its ledger holds as many calls as the answer says (`statistics_exact`).
-/

namespace DegreeGraph

universe u

variable {σ : Type u} {feasible : List ℤ → Bool} {settings : Settings} {source : Source σ}
  {degrees : List ℤ} {state s₀ s : σ} {config : Config} {r : Realization} {p : Progress}

/-! ## The draws of one search -/

/-- Each draw of a search is from a pool with one entry less. -/
theorem bounds_searchPool (source : Source σ) (settings : Settings) (verdictOn : ℕ → Verdict)
    (draws : ℕ) (pool : List ℕ) (state : σ) :
    let found := searchPool source settings verdictOn draws pool state
    found.trials.map Trial.bound
      = (List.range found.trials.length).map fun t ↦ pool.length - t := by
  fun_induction searchPool source settings verdictOn draws pool state with
  | case1 => rfl
  | case2 => rfl
  | case3 => rfl
  | case4 draws state first others hopen k next hdraw partner rest trial hrefused later ih =>
    have hlength : rest.length = others.length := length_swapRemove (first :: others) k
    have hshift (t : ℕ) : (first :: others).length - (t + 1) = rest.length - t := by
      rw [hlength, List.length_cons]
      omega
    simp only [List.map_cons, List.length_cons, List.range_succ_eq_map, List.map_map]
    refine congrArg₂ List.cons rfl (ih.trans (List.map_congr_left fun t _ ↦ ?_))
    exact (hshift t).symm

/-- In a turn of a run the pools have one entry less from draw to draw, and no partner is drawn
twice. -/
theorem draws_of_turn (hreach : Reaches feasible settings source (.start degrees) s₀ p s) {t : Turn}
    (ht : t ∈ (runFrom feasible settings source p s).turns) :
    t.trials.map Trial.bound = (List.range t.draws).map (fun i ↦ degrees.length - 1 - i)
      ∧ (t.trials.map Trial.partner).Nodup := by
  obtain ⟨q, u, hq, hpivot, heq⟩ := hreach.exists_of_mem_turns ht
  have hlt := (selectPivot_eq_some_iff.mp hpivot).lt_length
  have hbounds := bounds_searchPool source settings (judge feasible settings.skipSpent q t.pivot) 0
    (partnersOf q.residual.length t.pivot) u
  rw [length_partnersOf hlt, hq.accounts.length_eq] at hbounds
  have hfits := hq.accounts.fits_search feasible settings source t.pivot u
  have hnodup := hfits.perm.nodup_iff.mpr (List.nodup_range.filter _)
  rw [heq]
  refine ⟨?_, hnodup.of_append_left⟩
  rw [turnAt, Turn.draws, search, hq.accounts.length_eq]
  exact hbounds

/-! ## Runs that follow one another -/

/-- Each run takes up the source where the one before left it, all but the last have given up, and
there are not more of those than restarts are allowed; only when these are used up the last one may
give up as well. -/
structure Attempt.IsMade (feasible : List ℤ → Bool) (settings : Settings) (source : Source σ)
    (degrees : List ℤ) (restarts : ℕ) (state : σ) (a : Attempt σ) : Prop where
  runs_eq : a.runs = (state :: a.abandoned.map Run.state).map (run feasible settings source degrees)
  gaveUp : ∀ r ∈ a.abandoned, r.givenUp?.isSome = true
  length_le : a.abandoned.length ≤ restarts
  length_eq : a.last.givenUp?.isSome = true → a.abandoned.length = restarts

theorem isMade_attempt (feasible : List ℤ → Bool) (settings : Settings) (source : Source σ)
    (degrees : List ℤ) (restarts : ℕ) (state : σ) :
    (attempt feasible settings source degrees restarts state).IsMade feasible settings source
      degrees restarts state := by
  induction restarts generalizing state with
  | zero => exact ⟨rfl, fun r hr ↦ absurd hr List.not_mem_nil, le_rfl, fun _ ↦ rfl⟩
  | succ restarts ih =>
    rw [attempt]
    split
    · rename_i hgiven
      have hlater := ih (run feasible settings source degrees state).state
      refine ⟨congrArg (List.cons _) hlater.runs_eq, fun r hr ↦ ?_,
        Nat.succ_le_succ hlater.length_le, fun hlast ↦ congrArg Nat.succ (hlater.length_eq hlast)⟩
      rcases List.mem_cons.mp hr with rfl | hr
      · exact hgiven
      · exact hlater.gaveUp r hr
    · rename_i hdone
      refine ⟨rfl, fun r hr ↦ absurd hr List.not_mem_nil, Nat.zero_le _, fun hlast ↦ ?_⟩
      exact absurd hlast hdone

namespace Attempt.IsMade

variable {restarts : ℕ} {a : Attempt σ}

/-- The last run is the one that starts where the abandoned ones left the source. -/
theorem last_eq (h : a.IsMade feasible settings source degrees restarts state) :
    a.last = run feasible settings source degrees ((a.abandoned.map Run.state).getLastD state) := by
  have hlast := congrArg List.getLast? h.runs_eq
  rw [Attempt.runs, List.getLast?_concat, List.getLast?_map, List.getLast?_cons] at hlast
  rw [List.getLastD_eq_getLast?]
  exact Option.some.inj hlast

/-- With a limit that is negative no run is abandoned, as with none at all. -/
theorem abandoned_le {most : ℤ}
    (h : a.IsMade feasible settings source degrees most.toNat state) :
    (a.abandoned.length : ℤ) ≤ max 0 most := by
  rw [max_comm, ← Int.toNat_eq_max]
  exact Int.ofNat_le.mpr h.length_le

theorem abandoned_eq {most : ℤ} {t : Turn}
    (h : a.IsMade feasible settings source degrees most.toNat state)
    (hgiven : a.last.givenUp? = some t) : (a.abandoned.length : ℤ) = max 0 most := by
  rw [h.length_eq (Option.isSome_of_eq_some hgiven), Int.toNat_eq_max, max_comm]

end Attempt.IsMade

/-! ## What a run depends on -/

theorem searchPool_congr {other : Settings} (hbudget : settings.budget = other.budget)
    (source : Source σ) (verdictOn : ℕ → Verdict) (draws : ℕ) (pool : List ℕ) (state : σ) :
    searchPool source settings verdictOn draws pool state
      = searchPool source other verdictOn draws pool state := by
  have hused := isUsedUp_congr hbudget
  fun_induction searchPool source settings verdictOn draws pool state with
  | case1 => rw [searchPool]
  | case2 draws state first others hout =>
    rw [searchPool, if_pos (hused draws ▸ hout)]
  | case3 draws state first others hopen k next hdraw partner rest trial haccepted =>
    exact (searchPool_of_accepted (hused draws ▸ hopen) hdraw haccepted).symm
  | case4 draws state first others hopen k next hdraw partner rest trial hrefused later ih =>
    rw [searchPool_of_refused (hused draws ▸ hopen) hdraw hrefused, ← ih]

/-- A run depends on the budget and on what is done about partners without demand. How many restarts
are allowed makes no difference to it. -/
theorem runFrom_congr {other : Settings} (hbudget : settings.budget = other.budget)
    (hskip : settings.skipSpent = other.skipSpent) (p : Progress) (s : σ) :
    runFrom feasible settings source p s = runFrom feasible other source p s := by
  have hsearch (p : Progress) (pivot : ℕ) (s : σ) :
      search feasible settings source p pivot s = search feasible other source p pivot s := by
    rw [search, search, hskip, searchPool_congr hbudget]
  have hturn (p : Progress) (s : σ) (pivot : ℕ) :
      turnAt feasible settings source p s pivot = turnAt feasible other source p s pivot := by
    rw [turnAt, turnAt, hsearch]
  induction p, s using run_induction feasible settings source with
  | met p s hpivot => rw [runFrom_met hpivot, runFrom_met hpivot]
  | stuck p s pivot hpivot hnone =>
    rw [runFrom_stuck hpivot hnone, runFrom_stuck hpivot (hsearch p pivot s ▸ hnone), hturn,
      hsearch]
  | turn p s pivot partner hpivot hfound ih =>
    rw [runFrom_turn hpivot hfound, runFrom_turn hpivot (hsearch p pivot s ▸ hfound), hturn, ih,
      hsearch]

theorem run_congr {other : Settings} (hbudget : settings.budget = other.budget)
    (hskip : settings.skipSpent = other.skipSpent) :
    run feasible settings source degrees state = run feasible other source degrees state :=
  runFrom_congr hbudget hskip _ _

/-! ## Reports -/

/-- How many of some reports are warnings. -/
def warnings (events : List Event) : ℕ := events.countP fun e ↦ e.level = .warning

theorem warnings_append (earlier later : List Event) :
    warnings (earlier ++ later) = warnings earlier + warnings later := List.countP_append

theorem warnings_abandonedEvents (others : ℕ) (most : ℤ) (restarts : ℕ) {runs : List (Run σ)}
    (h : ∀ r ∈ runs, r.givenUp?.isSome = true) :
    warnings (abandonedEvents others most restarts runs) = runs.length := by
  induction runs generalizing restarts with
  | nil => rfl
  | cons r rest ih =>
    obtain ⟨t, ht⟩ := Option.isSome_iff_exists.mp (h r List.mem_cons_self)
    have hrest := ih (restarts + 1) fun r' hr ↦ h r' (List.mem_cons_of_mem r hr)
    rw [abandonedEvents, ht, warnings_append, hrest, List.length_cons, Nat.add_comm]
    rfl

/-- There is a warning for each restart. -/
theorem warnings_attemptEvents (nodes : ℕ) (most : ℤ) {a : Attempt σ}
    (h : ∀ r ∈ a.abandoned, r.givenUp?.isSome = true) :
    warnings (attemptEvents nodes most a) = a.abandoned.length := by
  rw [attemptEvents, warnings_append, warnings_abandonedEvents _ _ _ h]
  cases hgiven : a.last.givenUp? with
  | some t => rfl
  | none =>
    have hok : a.outcome = .ok ⟨a.last.edges, a.draws, a.checks, a.abandoned.length⟩ := by
      rw [Attempt.outcome, hgiven]
    rw [hok]
    rfl

/-! ## Answers that come from runs -/

theorem outcome_eq_ok_iff {a : Attempt σ} : a.outcome = .ok r ↔
    a.last.givenUp? = none ∧ r = ⟨a.last.edges, a.draws, a.checks, a.abandoned.length⟩ := by
  rw [Attempt.outcome]
  cases a.last.givenUp? with
  | none => simp [eq_comm]
  | some t => simp

theorem outcome_eq_exhausted_iff {a : Attempt σ} {pivot attempts restarts : Datum} :
    a.outcome = .error (.exhausted pivot attempts restarts) ↔
      ∃ t, a.last.givenUp? = some t ∧ pivot = .int t.pivot ∧ attempts = .int a.draws
        ∧ restarts = .int a.abandoned.length := by
  rw [Attempt.outcome]
  cases a.last.givenUp? with
  | none => simp
  | some t => simp [eq_comm]

/-- The runs have been made: there is a realization, or they have all given up. -/
def Sampling.HasRun (s : Sampling) : Prop :=
  (∃ r, s.answer = .ok r) ∨
    ∃ pivot attempts restarts, s.answer = .error (.exhausted pivot attempts restarts)

theorem Config.countFault?_eq_some {d : Datum} {fault : Fault} (h : countFault? d = some fault) :
    fault = .incomparable .atLeast .int d.kind ∧ d.toInt? = none ∧ ∀ x, d ≠ .float x := by
  rw [countFault?] at h
  split at h
  · cases h
  · rename_i cause hcause
    refine ⟨(Option.some.inj h).symm, ?_, ?_⟩
    · cases d with
      | bool b => simp [Datum.related, Datum.relatedAtoms, Datum.numeric?] at hcause
      | int z => simp [Datum.related_int] at hcause
      | _ => rfl
    · rintro x rfl
      simp [Datum.related, Datum.relatedAtoms, Datum.numeric?] at hcause

/-- A limit of restarts that is no number allows none. -/
theorem Config.settings_of_restartsFault? {fault : Fault} (h : config.restartsFault? = some fault) :
    { config.settings with restarts := 0 } = config.settings := by
  obtain ⟨-, hnone, hfloat⟩ := countFault?_eq_some h
  have hzero : config.settings.restarts = 0 := by
    cases hd : config.restarts with
    | float x => exact absurd hd (hfloat x)
    | _ =>
      rw [hd] at hnone
      simp only [settings, hd, hnone, Option.getD_none]
  rw [← hzero]

theorem Config.budgetFault?_eq_some {fault : Fault} (h : config.budgetFault? degrees = some fault) :
    fault = .incomparable .atLeast .int config.budget.kind := by
  rw [budgetFault?] at h
  split at h
  · cases h
  · split at h
    · exact (countFault?_eq_some h).1
    · cases h

namespace Sampling

/-- Degrees that pass are sampled by runs. -/
theorem hasRun_sampleDegrees (hpasses : feasible degrees = true) :
    (sampleDegrees feasible settings source state degrees).HasRun := by
  rw [sampleDegrees, if_pos hpasses]
  cases hgiven : (attemptAll feasible settings source degrees state).last.givenUp? with
  | none => exact Or.inl ⟨_, outcome_eq_ok_iff.mpr ⟨hgiven, rfl⟩⟩
  | some t => exact Or.inr ⟨_, _, _, outcome_eq_exhausted_iff.mpr ⟨t, hgiven, rfl, rfl, rfl⟩⟩

theorem not_hasRun_failed {fault : Fault}
    (h : ∀ pivot attempts restarts, fault ≠ .exhausted pivot attempts restarts) :
    ¬(failed fault).HasRun := by
  rintro (⟨r, hr⟩ | ⟨pivot, attempts, restarts, hfault⟩)
  · cases hr
  · exact h _ _ _ (Except.error.inj hfault)

theorem HasRun.insteadOfExhausted {s : Sampling} {fault : Fault}
    (h : (s.insteadOfExhausted fault).HasRun)
    (hfault : ∀ pivot attempts restarts, fault ≠ .exhausted pivot attempts restarts) :
    s.insteadOfExhausted fault = s := by
  obtain ⟨asked, events, answer⟩ := s
  cases answer with
  | ok r => rfl
  | error cause =>
    cases cause with
    | exhausted =>
      obtain ⟨r, hr⟩ | ⟨pivot, attempts, restarts, hanswer⟩ := h
      · cases hr
      · exact absurd (Except.error.inj hanswer) (hfault _ _ _)
    | _ => rfl

end Sampling

/-- Where runs have been made, the settings were fit for them. -/
theorem sampleWith_eq_sampleDegrees
    (h : (sampleWith config feasible source state degrees).HasRun) :
    sampleWith config feasible source state degrees
        = sampleDegrees feasible config.settings source state degrees
      ∧ feasible degrees = true ∧ config.budgetFault? degrees = none := by
  rw [sampleWith] at h ⊢
  cases hpasses : feasible degrees with
  | false =>
    rw [hpasses] at h
    exact absurd h (Sampling.not_hasRun_failed (by rintro _ _ _ ⟨⟩))
  | true =>
    simp only [hpasses, Bool.not_true, Bool.false_eq_true, if_false] at h ⊢
    cases hbudget : config.budgetFault? degrees with
    | some fault =>
      rw [hbudget] at h
      obtain rfl := Config.budgetFault?_eq_some hbudget
      exact absurd h (Sampling.not_hasRun_failed (by rintro _ _ _ ⟨⟩))
    | none =>
      rw [hbudget] at h
      refine ⟨?_, trivial, rfl⟩
      cases hrestarts : config.restartsFault? with
      | none => rfl
      | some fault =>
        obtain ⟨rfl, -, -⟩ := Config.countFault?_eq_some hrestarts
        simp only [hrestarts, Config.settings_of_restartsFault? hrestarts] at h ⊢
        exact h.insteadOfExhausted (by rintro _ _ _ ⟨⟩)

/-- Where runs have been made, the sampling tells what they asked for, what they reported and how they
ended. -/
theorem sampleWith_of_hasRun (h : (sampleWith config feasible source state degrees).HasRun) :
    let a := attemptAll feasible config.settings source degrees state
    sampleWith config feasible source state degrees
      = ⟨a.bounds, attemptEvents degrees.length config.settings.shownRestarts a, a.outcome⟩ := by
  obtain ⟨heq, hpasses, -⟩ := sampleWith_eq_sampleDegrees h
  rw [heq, sampleDegrees, if_pos hpasses]

/-- Settings that are fit are handed to the sampler of degrees that pass. -/
theorem sampleWith_of_fit (hpasses : feasible degrees = true)
    (hbudget : config.budgetFault? degrees = none) (hrestarts : config.restartsFault? = none) :
    sampleWith config feasible source state degrees
      = sampleDegrees feasible config.settings source state degrees := by
  simp only [sampleWith, hpasses, hbudget, hrestarts, Bool.not_true, Bool.false_eq_true, if_false]

/-- A first run that does not give up is answered, whatever the settings say about restarts. -/
theorem answer_sampleWith_of_givenUp?_eq_none (hpasses : feasible degrees = true)
    (hbudget : config.budgetFault? degrees = none)
    (hdone : (run feasible config.settings source degrees s).givenUp? = none) :
    let first := run feasible config.settings source degrees s
    (sampleWith config feasible source s degrees).answer
      = .ok ⟨first.edges, first.draws, first.checks, 0⟩ := by
  intro first
  have hanswer := sampleDegrees_of_givenUp?_eq_none hpasses hdone
  simp only [sampleWith, hpasses, hbudget, Bool.not_true, Bool.false_eq_true, if_false]
  cases hrestarts : config.restartsFault? with
  | none => exact hanswer
  | some fault =>
    simp only [Config.settings_of_restartsFault? hrestarts]
    exact (congrArg Sampling.answer (Sampling.insteadOfExhausted_of_ok hanswer fault)).trans hanswer

/-- Whoever starts where a run that does not give up has started, and allows no restart, is answered
with the edges of that run. -/
theorem sampleWith_fresh (hpasses : feasible degrees = true)
    (hbudget : config.budgetFault? degrees = none)
    (hdone : (run feasible config.settings source degrees s).givenUp? = none) :
    ∃ r, (sampleWith { config with restarts := .int 0 } feasible source s degrees).answer = .ok r
      ∧ r.order = (run feasible config.settings source degrees s).edges := by
  let fresh : Config := { config with restarts := .int 0 }
  have hsame : run feasible fresh.settings source degrees s
      = run feasible config.settings source degrees s := run_congr rfl rfl
  have hfit : fresh.budgetFault? degrees = none := hbudget
  exact ⟨_, answer_sampleWith_of_givenUp?_eq_none hpasses hfit (hsame ▸ hdone),
    congrArg Run.edges hsame⟩

/-- **Nothing but counts is handed on from abandoned runs.** An answer has the edges, in their
order, of the answer that is got without restarts from where the abandoned runs left the source. -/
theorem exists_fresh_answer
    (h : (sampleWith config feasible source state degrees).answer = .ok r) :
    let a := attemptAll feasible config.settings source degrees state
    ∃ q, (sampleWith { config with restarts := .int 0 } feasible source
        ((a.abandoned.map Run.state).getLastD state) degrees).answer = .ok q
      ∧ q.edges = r.edges ∧ q.order = r.order ∧ q.iterations = r.iterations := by
  intro a
  have hmade : a.IsMade feasible config.settings source degrees config.settings.restarts.toNat
      state := isMade_attempt feasible config.settings source degrees _ state
  have hrun : (sampleWith config feasible source state degrees).HasRun := Or.inl ⟨r, h⟩
  obtain ⟨-, hpasses, hbudget⟩ := sampleWith_eq_sampleDegrees hrun
  have houtcome : a.outcome = .ok r := by rw [← h, sampleWith_of_hasRun hrun]
  obtain ⟨hdone, rfl⟩ := outcome_eq_ok_iff.mp houtcome
  obtain ⟨q, hq, horder⟩ := sampleWith_fresh hpasses hbudget (hmade.last_eq ▸ hdone)
  rw [← hmade.last_eq] at horder
  refine ⟨q, hq, ?_, horder, ?_⟩
  · rw [Realization.edges, Realization.edges, horder]
  · rw [Realization.iterations, Realization.iterations, horder]

/-- **Statistics and restarts are exact.** Whatever the test, the settings and the draws are: the
sampler that counts along the way comes to the same answer, and its ledger holds as many draws and
questions to the test as the answer says. The restarts are the abandoned runs, there is a warning
for each, and they are at most as many as allowed; when all runs have given up they are exactly as
many, and the pivot is the one at which the last run did. Each run starts where the one before left
the source, so an answer has the edges of a fresh one that starts where the abandoned runs left it.
Within a search the pools have one entry less from draw to draw, and no partner is drawn twice. -/
theorem statistics_exact (feasible : List ℤ → Bool) (config : Config) (source : Source σ)
    (state : σ) (degrees : List ℤ) :
    let sampling := sampleWith config feasible source state degrees
    let a := attemptAll feasible config.settings source degrees state
    let told := countedAttempt feasible config.settings source degrees 0 0 0 ⟨state, [], 0⟩
    (∀ r, sampling.answer = .ok r →
      told.1 = .ok r ∧ told.2.drawn = sampling.asked ∧ r.attempts = told.2.drawn.length
        ∧ r.checks = told.2.asked
        ∧ r.restarts = a.abandoned.length ∧ r.restarts = warnings sampling.events
        ∧ (r.restarts : ℤ) ≤ max 0 config.settings.restarts
        ∧ ∃ q, (sampleWith { config with restarts := .int 0 } feasible source
              ((a.abandoned.map Run.state).getLastD state) degrees).answer = .ok q
            ∧ q.edges = r.edges ∧ q.order = r.order ∧ q.iterations = r.iterations) ∧
    (∀ pivot attempts restarts,
      sampling.answer = .error (.exhausted pivot attempts restarts) →
      told.1 = .error (.exhausted pivot attempts restarts) ∧ told.2.drawn = sampling.asked
        ∧ attempts = .int told.2.drawn.length
        ∧ restarts = .int a.abandoned.length ∧ a.abandoned.length = warnings sampling.events
        ∧ (a.abandoned.length : ℤ) = max 0 config.settings.restarts
        ∧ ∃ t, a.last.givenUp? = some t ∧ pivot = .int t.pivot) ∧
    a.runs = (state :: a.abandoned.map Run.state).map
      (run feasible config.settings source degrees) ∧
    (∀ r ∈ a.abandoned, r.givenUp?.isSome = true) ∧
    ∀ r ∈ a.runs, ∀ t ∈ r.turns,
      t.trials.map Trial.bound = (List.range t.draws).map (fun i ↦ degrees.length - 1 - i)
        ∧ (t.trials.map Trial.partner).Nodup := by
  intro sampling a told
  have hmade : a.IsMade feasible config.settings source degrees config.settings.restarts.toNat
      state := isMade_attempt feasible config.settings source degrees _ state
  have htold : told = (a.outcome, ⟨a.last.state, a.bounds, a.checks⟩) :=
    countedAttempt_start feasible config.settings source degrees state
  have hwarnings : warnings (attemptEvents degrees.length config.settings.shownRestarts a)
      = a.abandoned.length := warnings_attemptEvents _ _ hmade.gaveUp
  refine ⟨fun r hr ↦ ?_, fun pivot attempts restarts hexhausted ↦ ?_, hmade.runs_eq, hmade.gaveUp,
    fun r hr t ht ↦ ?_⟩
  · have hsampling : sampling
        = ⟨a.bounds, attemptEvents degrees.length config.settings.shownRestarts a, a.outcome⟩ :=
      sampleWith_of_hasRun (Or.inl ⟨r, hr⟩)
    have houtcome : a.outcome = .ok r := by rw [← hr, hsampling]
    have hfresh := exists_fresh_answer hr
    obtain ⟨-, rfl⟩ := outcome_eq_ok_iff.mp houtcome
    rw [htold, hsampling]
    exact ⟨houtcome, rfl, (length_bounds a).symm, rfl, rfl, hwarnings.symm, hmade.abandoned_le,
      hfresh⟩
  · have hsampling : sampling
        = ⟨a.bounds, attemptEvents degrees.length config.settings.shownRestarts a, a.outcome⟩ :=
      sampleWith_of_hasRun (Or.inr ⟨pivot, attempts, restarts, hexhausted⟩)
    have houtcome : a.outcome = .error (.exhausted pivot attempts restarts) := by
      rw [← hexhausted, hsampling]
    obtain ⟨t, hgiven, rfl, rfl, rfl⟩ := outcome_eq_exhausted_iff.mp houtcome
    have hattempts : Datum.int a.draws = .int a.bounds.length := by rw [length_bounds]
    rw [htold, hsampling]
    exact ⟨houtcome, rfl, hattempts, rfl, hwarnings.symm, hmade.abandoned_eq hgiven, t, hgiven, rfl⟩
  · rw [hmade.runs_eq] at hr
    obtain ⟨s, -, rfl⟩ := List.mem_map.mp hr
    exact draws_of_turn Reaches.start ht

/-- Two disjoint edges with one draw for each: a run that draws the node of the first edge for the
second one is abandoned, and the next one draws better, or is the last that is allowed. -/
theorem statistics_exact_matching :
    let test : List ℤ → Bool := fun _ ↦ true
    let config : Config := { budget := .int 1, restarts := .int 1 }
    let degrees := [1, 1, 1, 1]
    let told (script : List ℤ) :=
      countedAttempt test config.settings (scriptSource script) degrees 0 0 0 ⟨0, [], 0⟩
    (sampleWith config test (scriptSource [0, 0, 0, 2]) 0 degrees).answer
        = .ok ⟨[(0, 1), (2, 3)], 4, 3, 1⟩
      ∧ (told [0, 0, 0, 2]).2.drawn.length = 4 ∧ (told [0, 0, 0, 2]).2.asked = 3
      ∧ (sampleWith config test (scriptSource [0]) 0 degrees).answer
        = .error (.exhausted (.int 2) (.int 4) (.int 1))
      ∧ warnings (sampleWith config test (scriptSource [0]) 0 degrees).events = 1 := by
  intro test config degrees told
  have hanswer : (sampleWith config test (scriptSource [0, 0, 0, 2]) 0 degrees).answer
      = .ok ⟨[(0, 1), (2, 3)], 4, 3, 1⟩ := by cbv
  have hexhausted : (sampleWith config test (scriptSource [0]) 0 degrees).answer
      = .error (.exhausted (.int 2) (.int 4) (.int 1)) := by cbv
  obtain ⟨hfound, -⟩ := statistics_exact test config (scriptSource [0, 0, 0, 2]) 0 degrees
  obtain ⟨-, -, hattempts, hchecks, -⟩ := hfound _ hanswer
  obtain ⟨-, hfailed, -⟩ := statistics_exact test config (scriptSource [0]) 0 degrees
  obtain ⟨-, -, -, hrestarts, hwarnings, -⟩ := hfailed _ _ _ hexhausted
  refine ⟨hanswer, hattempts.symm, hchecks.symm, hexhausted, ?_⟩
  rw [← hwarnings]
  exact Int.ofNat_inj.mp (Datum.int.inj hrestarts).symm

end DegreeGraph
