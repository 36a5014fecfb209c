import DegreeGraph.Proofs.Sampling.AnyTest

/-!
# Skipping spent partners only saves checks

A partner without demand can be refused at once, or the feasibility test can be asked about demands
of which one is negative. If the test refuses those, both come to the same: the partner is not
taken. So two runs on the same draws, of which one skips spent partners and the other asks the test,
stay side by side. They draw from the same pools, take the same partners, and fail at the same
pivot.

The relation `Spares` says this of one thing after the other: verdicts, trials, searches, turns,
runs and attempts. The induction along a run follows the run that skips.
-/

namespace DegreeGraph

universe u v

/-! ## Lists side by side -/

section Forall₂

variable {α : Type u} {β : Type v} {R : α → α → Prop} {xs ys : List α}

theorem map_eq_of_forall₂ (h : List.Forall₂ R xs ys) {f : α → β} (hf : ∀ x y, R x y → f x = f y) :
    xs.map f = ys.map f := by
  have hmap : List.Forall₂ (· = ·) (xs.map f) (ys.map f) :=
    List.forall₂_map_left_iff.mpr (List.forall₂_map_right_iff.mpr (h.imp hf))
  rwa [List.forall₂_eq_eq_eq] at hmap

theorem total_map_le_of_forall₂ (h : List.Forall₂ R xs ys) {f : α → ℕ}
    (hf : ∀ x y, R x y → f x ≤ f y) : total (xs.map f) ≤ total (ys.map f) := by
  have hmap : List.Forall₂ (· ≤ ·) (xs.map f) (ys.map f) :=
    List.forall₂_map_left_iff.mpr (List.forall₂_map_right_iff.mpr (h.imp hf))
  rw [total_eq_sum, total_eq_sum]
  exact hmap.sum_le_sum

end Forall₂

variable {σ : Type u} {feasible : List ℤ → Bool} {on off settings : Settings} {source : Source σ}
  {degrees : List ℤ} {p : Progress} {state : σ} {pivot partner : ℕ}

/-! ## Verdicts and trials -/

/-- Both verdicts take the partner or both refuse it, and the first one has asked the test only if
the second has. -/
structure Verdict.Spares (v w : Verdict) : Prop where
  accepted_iff : v = .accepted ↔ w = .accepted
  isChecked : v.isChecked = true → w.isChecked = true

theorem judge_spares (hnegative : RefusesNegative feasible) (hne : partner ≠ pivot)
    (hpartner : partner < p.residual.length) :
    (judge feasible true p pivot partner).Spares (judge feasible false p pivot partner) := by
  by_cases hspent : p.residual.getD partner 0 = 0
  · -- The edge would leave a demand of minus one, which the test refuses.
    have hrefused : feasible (p.lowered pivot partner) = false := by
      rw [Bool.eq_false_iff]
      intro hpasses
      have hnonneg := hnegative.getD_nonneg hpasses partner
      rw [getD_lowered p pivot partner partner hpartner, hspent, if_neg hne, if_pos rfl] at hnonneg
      omega
    rw [judge, judge, hrefused]
    simp only [hspent, beq_self_eq_true, Bool.and_true, Bool.false_eq_true, if_true, if_false]
    split
    · exact ⟨Iff.rfl, id⟩
    · exact ⟨by decide, by decide⟩
  · have hskip (b : Bool) : (b && p.residual.getD partner 0 == 0) = false := by
      rw [beq_false_of_ne hspent, Bool.and_false]
    rw [judge, judge, hskip, hskip]
    exact ⟨Iff.rfl, id⟩

/-- Two trials drew the same partner from pools of the same size, and the verdict of the first one
spares that of the second. -/
structure Trial.Spares (t u : Trial) : Prop where
  bound : t.bound = u.bound
  partner : t.partner = u.partner
  verdict : t.verdict.Spares u.verdict

theorem countP_isChecked_le_of_spares {ts us : List Trial} (h : List.Forall₂ Trial.Spares ts us) :
    ts.countP (fun t ↦ t.verdict.isChecked) ≤ us.countP fun t ↦ t.verdict.isChecked := by
  induction h with
  | nil => exact le_rfl
  | @cons t u ts us htrial _ ih =>
    rw [List.countP_cons, List.countP_cons]
    apply Nat.add_le_add ih
    by_cases hchecked : t.verdict.isChecked = true
    · rw [if_pos hchecked, if_pos (htrial.verdict.isChecked hchecked)]
    · rw [if_neg hchecked]
      exact Nat.zero_le _

/-! ## Searches -/

/-- Two searches went side by side. -/
structure Search.Spares (s t : Search σ) : Prop where
  trials : List.Forall₂ Trial.Spares s.trials t.trials
  untried : s.untried = t.untried
  partner : s.partner = t.partner
  state : s.state = t.state

theorem searchPool_spares (hbudget : on.budget = off.budget) (source : Source σ)
    {verdictOn otherOn : ℕ → Verdict} (draws : ℕ) {pool : List ℕ}
    (hverdict : ∀ j ∈ pool, (verdictOn j).Spares (otherOn j)) (state : σ) :
    (searchPool source on verdictOn draws pool state).Spares
      (searchPool source off otherOn draws pool state) := by
  have hused := isUsedUp_congr hbudget
  fun_induction searchPool source on verdictOn draws pool state with
  | case1 =>
    rw [searchPool]
    exact ⟨List.Forall₂.nil, rfl, rfl, rfl⟩
  | case2 draws state first others hon =>
    rw [searchPool, if_pos (hused draws ▸ hon)]
    exact ⟨List.Forall₂.nil, rfl, rfl, rfl⟩
  | case3 draws state first others hon k next hdraw partner rest trial haccepted =>
    have hspares := hverdict partner (List.getElem_mem k.isLt)
    rw [searchPool_of_accepted (hused draws ▸ hon) hdraw (hspares.accepted_iff.mp haccepted)]
    exact ⟨List.Forall₂.cons ⟨rfl, rfl, hspares⟩ List.Forall₂.nil, rfl, rfl, rfl⟩
  | case4 draws state first others hon k next hdraw partner rest trial hrefused later ih =>
    have hspares := hverdict partner (List.getElem_mem k.isLt)
    rw [searchPool_of_refused (hused draws ▸ hon) hdraw
      fun haccepted ↦ hrefused (hspares.accepted_iff.mpr haccepted)]
    have hrest := ih fun j hj ↦
      hverdict j ((perm_swapRemove k.isLt).mem_iff.mp (List.mem_cons_of_mem _ hj))
    exact ⟨List.Forall₂.cons ⟨rfl, rfl, hspares⟩ hrest.trials, hrest.untried, hrest.partner,
      hrest.state⟩

/-- Two settings that only differ in what is done about partners without demand: the first ones
skip them, the second ones have the test asked. -/
structure Settings.Skips (on off : Settings) : Prop where
  budget : on.budget = off.budget
  restarts : on.restarts = off.restarts
  skipped : on.skipSpent = true
  asked : off.skipSpent = false

theorem search_spares (hsettings : on.Skips off) (hnegative : RefusesNegative feasible)
    (source : Source σ) (p : Progress) (pivot : ℕ) (state : σ) :
    (search feasible on source p pivot state).Spares
      (search feasible off source p pivot state) := by
  rw [search, search, hsettings.skipped, hsettings.asked]
  apply searchPool_spares hsettings.budget
  intro j hj
  obtain ⟨hlt, hne⟩ := mem_partnersOf.mp hj
  exact judge_spares hnegative hne hlt

/-! ## Turns and runs -/

/-- Two turns went side by side. -/
structure Turn.Spares (t u : Turn) : Prop where
  pivot : t.pivot = u.pivot
  demand : t.demand = u.demand
  trials : List.Forall₂ Trial.Spares t.trials u.trials
  untried : t.untried = u.untried
  partner : t.partner = u.partner

theorem Search.Spares.turnAt
    (h : (search feasible on source p pivot state).Spares
      (search feasible off source p pivot state)) :
    (turnAt feasible on source p state pivot).Spares (turnAt feasible off source p state pivot) :=
  ⟨rfl, rfl, h.trials, h.untried, h.partner⟩

namespace Turn.Spares

variable {t u : Turn}

theorem edge?_eq (h : t.Spares u) : t.edge? = u.edge? := by
  rw [Turn.edge?, Turn.edge?, h.partner, h.pivot]

theorem draws_eq (h : t.Spares u) : t.draws = u.draws := h.trials.length_eq

theorem bounds_eq (h : t.Spares u) : t.trials.map Trial.bound = u.trials.map Trial.bound :=
  map_eq_of_forall₂ h.trials fun _ _ htrial ↦ htrial.bound

theorem checks_le (h : t.Spares u) : t.checks ≤ u.checks := countP_isChecked_le_of_spares h.trials

end Turn.Spares

theorem find?_isNone_eq_of_spares {ts us : List Turn} (h : List.Forall₂ Turn.Spares ts us) :
    (ts.find? fun t ↦ t.partner.isNone).map Turn.pivot
      = (us.find? fun t ↦ t.partner.isNone).map Turn.pivot := by
  induction h with
  | nil => rfl
  | @cons t u ts us hturn _ ih =>
    rw [List.find?_cons, List.find?_cons, hturn.partner]
    cases u.partner with
    | none => exact congrArg some hturn.pivot
    | some partner => exact ih

/-- Two runs went side by side. -/
structure Run.Spares (r t : Run σ) : Prop where
  turns : List.Forall₂ Turn.Spares r.turns t.turns
  state : r.state = t.state

/-- **Two runs on the same draws stay side by side.** -/
theorem runFrom_spares (hsettings : on.Skips off) (hnegative : RefusesNegative feasible)
    (source : Source σ) (p : Progress) (state : σ) :
    (runFrom feasible on source p state).Spares (runFrom feasible off source p state) := by
  induction p, state using run_induction feasible on source with
  | met p s hpivot =>
    rw [runFrom_met hpivot, runFrom_met hpivot]
    exact ⟨List.Forall₂.nil, rfl⟩
  | stuck p s pivot hpivot hnone =>
    have hspares := search_spares hsettings hnegative source p pivot s
    rw [runFrom_stuck hpivot hnone, runFrom_stuck hpivot (hspares.partner ▸ hnone)]
    exact ⟨List.Forall₂.cons hspares.turnAt List.Forall₂.nil, hspares.state⟩
  | turn p s pivot partner hpivot hfound ih =>
    have hspares := search_spares hsettings hnegative source p pivot s
    rw [runFrom_turn hpivot hfound, runFrom_turn hpivot (hspares.partner ▸ hfound),
      ← hspares.state]
    exact ⟨List.Forall₂.cons hspares.turnAt ih.turns, ih.state⟩

namespace Run.Spares

variable {r t : Run σ}

theorem edges_eq (h : r.Spares t) : r.edges = t.edges := by
  have hedges := map_eq_of_forall₂ h.turns fun _ _ hturn ↦ hturn.edge?_eq
  rw [Run.edges, Run.edges, ← Function.id_comp Turn.edge?, ← List.filterMap_map, hedges,
    List.filterMap_map]

theorem bounds_eq (h : r.Spares t) : r.bounds = t.bounds := by
  have hbounds := map_eq_of_forall₂ h.turns fun _ _ hturn ↦ hturn.bounds_eq
  rw [Run.bounds, Run.bounds, List.flatMap_def, hbounds, List.flatMap_def]

theorem draws_eq (h : r.Spares t) : r.draws = t.draws := by
  rw [Run.draws, Run.draws, map_eq_of_forall₂ h.turns fun _ _ hturn ↦ hturn.draws_eq]

theorem checks_le (h : r.Spares t) : r.checks ≤ t.checks := by
  rw [Run.checks, Run.checks]
  exact total_map_le_of_forall₂ h.turns fun _ _ hturn ↦ hturn.checks_le

/-- Both runs give up at the same pivot, or neither does. -/
theorem givenUp?_eq (h : r.Spares t) :
    r.givenUp?.map Turn.pivot = t.givenUp?.map Turn.pivot :=
  find?_isNone_eq_of_spares h.turns

end Run.Spares

/-! ## Restarts -/

/-- Two attempts went side by side. -/
structure Attempt.Spares (a b : Attempt σ) : Prop where
  abandoned : List.Forall₂ Run.Spares a.abandoned b.abandoned
  last : a.last.Spares b.last

theorem attempt_spares (hsettings : on.Skips off) (hnegative : RefusesNegative feasible)
    (source : Source σ) (degrees : List ℤ) (restarts : ℕ) (state : σ) :
    (attempt feasible on source degrees restarts state).Spares
      (attempt feasible off source degrees restarts state) := by
  induction restarts generalizing state with
  | zero => exact ⟨List.Forall₂.nil, runFrom_spares hsettings hnegative source _ state⟩
  | succ restarts ih =>
    have hfirst : (run feasible on source degrees state).Spares
        (run feasible off source degrees state) :=
      runFrom_spares hsettings hnegative source _ state
    have hgiven : (run feasible off source degrees state).givenUp?.isSome
        = (run feasible on source degrees state).givenUp?.isSome := by
      rw [← Option.isSome_map (f := Turn.pivot), ← hfirst.givenUp?_eq, Option.isSome_map]
    rw [attempt, attempt, hgiven]
    split
    · have hlater := ih (run feasible on source degrees state).state
      rw [hfirst.state] at hlater ⊢
      exact ⟨List.Forall₂.cons hfirst hlater.abandoned, hlater.last⟩
    · exact ⟨List.Forall₂.nil, hfirst⟩

namespace Attempt.Spares

variable {a b : Attempt σ}

theorem runs (h : a.Spares b) : List.Forall₂ Run.Spares a.runs b.runs :=
  List.rel_append h.abandoned (List.Forall₂.cons h.last List.Forall₂.nil)

theorem bounds_eq (h : a.Spares b) : a.bounds = b.bounds := by
  have hbounds := map_eq_of_forall₂ h.runs fun _ _ hrun ↦ hrun.bounds_eq
  rw [Attempt.bounds, Attempt.bounds, List.flatMap_def, hbounds, List.flatMap_def]

theorem draws_eq (h : a.Spares b) : a.draws = b.draws := by
  rw [Attempt.draws, Attempt.draws, map_eq_of_forall₂ h.runs fun _ _ hrun ↦ hrun.draws_eq]

theorem checks_le (h : a.Spares b) : a.checks ≤ b.checks := by
  rw [Attempt.checks, Attempt.checks]
  exact total_map_le_of_forall₂ h.runs fun _ _ hrun ↦ hrun.checks_le

end Attempt.Spares

/-! ## The answer -/

/-- Two answers are the same failure, or the same realization but for the number of checks, which is
not greater in the first one. -/
inductive AnswersSpare : Except Fault Realization → Except Fault Realization → Prop
  | found {r q : Realization} (order : r.order = q.order) (attempts : r.attempts = q.attempts)
    (restarts : r.restarts = q.restarts) (checks : r.checks ≤ q.checks) :
    AnswersSpare (.ok r) (.ok q)
  | failed (fault : Fault) : AnswersSpare (.error fault) (.error fault)

namespace AnswersSpare

variable {a b : Except Fault Realization}

theorem exists_of_ok (h : AnswersSpare a b) {r : Realization} (ha : a = .ok r) :
    ∃ q, b = .ok q ∧ r.order = q.order ∧ r.attempts = q.attempts ∧ r.restarts = q.restarts
      ∧ r.checks ≤ q.checks := by
  cases h with
  | @found r' q horder hattempts hrestarts hchecks =>
    obtain rfl := Except.ok.inj ha
    exact ⟨q, rfl, horder, hattempts, hrestarts, hchecks⟩
  | failed fault => cases ha

theorem eq_error_iff (h : AnswersSpare a b) (fault : Fault) :
    a = .error fault ↔ b = .error fault := by
  cases h with
  | found => exact iff_of_false (by rintro ⟨⟩) (by rintro ⟨⟩)
  | failed cause => exact Iff.rfl

end AnswersSpare

theorem Attempt.Spares.outcome {a b : Attempt σ} (h : a.Spares b) :
    AnswersSpare a.outcome b.outcome := by
  have hgiven := h.last.givenUp?_eq
  rw [Attempt.outcome, Attempt.outcome]
  cases ha : a.last.givenUp? with
  | none =>
    rw [ha, Option.map_none, eq_comm, Option.map_eq_none_iff] at hgiven
    rw [hgiven]
    exact .found h.last.edges_eq h.draws_eq h.abandoned.length_eq h.checks_le
  | some t =>
    rw [ha, Option.map_some, eq_comm, Option.map_eq_some_iff] at hgiven
    obtain ⟨u, hb, hpivot⟩ := hgiven
    rw [hb]
    simp only [hpivot, h.draws_eq, h.abandoned.length_eq]
    exact .failed _

/-- Two samplings went side by side. -/
structure Sampling.Spares (s t : Sampling) : Prop where
  asked : s.asked = t.asked
  answer : AnswersSpare s.answer t.answer

theorem Sampling.spares_failed (fault : Fault) :
    (Sampling.failed fault).Spares (Sampling.failed fault) :=
  ⟨rfl, .failed fault⟩

theorem Sampling.Spares.insteadOfExhausted {s t : Sampling} (h : s.Spares t) (fault : Fault) :
    (s.insteadOfExhausted fault).Spares (t.insteadOfExhausted fault) := by
  obtain ⟨asked, events, answer⟩ := s
  obtain ⟨asked', events', answer'⟩ := t
  obtain ⟨hasked, hanswer⟩ := h
  cases hanswer with
  | found horder hattempts hrestarts hchecks =>
    exact ⟨hasked, .found horder hattempts hrestarts hchecks⟩
  | failed cause =>
    cases cause with
    | exhausted => exact ⟨hasked, .failed fault⟩
    | _ => exact ⟨hasked, .failed _⟩

theorem attemptAll_spares (hsettings : on.Skips off) (hnegative : RefusesNegative feasible)
    (source : Source σ) (state : σ) (degrees : List ℤ) :
    (attemptAll feasible on source degrees state).Spares
      (attemptAll feasible off source degrees state) := by
  rw [attemptAll, attemptAll, hsettings.restarts]
  exact attempt_spares hsettings hnegative source degrees _ state

theorem sampleDegrees_spares (hsettings : on.Skips off) (hnegative : RefusesNegative feasible)
    (source : Source σ) (state : σ) (degrees : List ℤ) :
    (sampleDegrees feasible on source state degrees).Spares
      (sampleDegrees feasible off source state degrees) := by
  rw [sampleDegrees, sampleDegrees]
  split
  · have hspares := attemptAll_spares hsettings hnegative source state degrees
    exact ⟨hspares.bounds_eq, hspares.outcome⟩
  · exact Sampling.spares_failed _

variable {config : Config} {yes no : Datum}

theorem Config.skips_settings (config : Config) (hyes : yes.holds = true) (hno : no.holds = false) :
    ({ config with skipSpent := yes } : Config).settings.Skips
      ({ config with skipSpent := no } : Config).settings :=
  ⟨rfl, rfl, hyes, hno⟩

theorem sampleWith_spares (config : Config) (hyes : yes.holds = true) (hno : no.holds = false)
    (hnegative : RefusesNegative feasible) (source : Source σ) (state : σ) (degrees : List ℤ) :
    (sampleWith { config with skipSpent := yes } feasible source state degrees).Spares
      (sampleWith { config with skipSpent := no } feasible source state degrees) := by
  have hskips := config.skips_settings hyes hno
  have hbudget : ({ config with skipSpent := no } : Config).budgetFault? degrees
      = ({ config with skipSpent := yes } : Config).budgetFault? degrees := rfl
  have hrestarts : ({ config with skipSpent := no } : Config).restartsFault?
      = ({ config with skipSpent := yes } : Config).restartsFault? := rfl
  rw [sampleWith, sampleWith, hbudget, hrestarts]
  split
  · exact Sampling.spares_failed _
  · split
    · exact Sampling.spares_failed _
    · apply Sampling.Spares.insteadOfExhausted
      apply sampleDegrees_spares _ hnegative
      exact ⟨hskips.budget, rfl, hskips.skipped, hskips.asked⟩
    · exact sampleDegrees_spares hskips hnegative source state degrees

/-- **Skipping partners without demand only saves checks.** Under a test that refuses negative
entries, and on the same draws, the sampler asks for the same draws and comes to the same end
whether it skips partners without demand or has the test asked about them: the same edges in the
same order, with the same draws and restarts, or the same failure. It never asks the test more often
if it skips them, not in runs that fail either. -/
theorem skipping_only_saves_checks (config : Config) (yes no : Datum) (hyes : yes.holds = true)
    (hno : no.holds = false) (feasible : List ℤ → Bool) (hnegative : RefusesNegative feasible)
    (source : Source σ) (state : σ) (degrees : List ℤ) :
    let skipping := sampleWith { config with skipSpent := yes } feasible source state degrees
    let asking := sampleWith { config with skipSpent := no } feasible source state degrees
    skipping.asked = asking.asked ∧
    (∀ r, skipping.answer = .ok r → ∃ q, asking.answer = .ok q ∧ r.edges = q.edges
      ∧ r.order = q.order ∧ r.iterations = q.iterations ∧ r.attempts = q.attempts
      ∧ r.restarts = q.restarts ∧ r.checks ≤ q.checks) ∧
    (∀ fault, skipping.answer = .error fault ↔ asking.answer = .error fault) ∧
    (attemptAll feasible ({ config with skipSpent := yes } : Config).settings source degrees
        state).checks
      ≤ (attemptAll feasible ({ config with skipSpent := no } : Config).settings source degrees
        state).checks := by
  intro skipping asking
  have hspares : skipping.Spares asking :=
    sampleWith_spares config hyes hno hnegative source state degrees
  refine ⟨hspares.asked, ?_, hspares.answer.eq_error_iff,
    (attemptAll_spares (config.skips_settings hyes hno) hnegative source state degrees).checks_le⟩
  intro r hr
  obtain ⟨q, hq, horder, hrest⟩ := hspares.answer.exists_of_ok hr
  refine ⟨q, hq, ?_, horder, ?_, hrest⟩
  · rw [Realization.edges, Realization.edges, horder]
  · rw [Realization.iterations, Realization.iterations, horder]

/-- Two disjoint edges: the second pivot draws a node that has its edge already. -/
theorem skipping_only_saves_checks_matching :
    let test := Feasibility.erdosGallai.passes
    RefusesNegative test ∧
      (sampleWith { skipSpent := .bool true } test frontSource () [1, 1, 1, 1]).answer
        = .ok ⟨[(0, 1), (2, 3)], 3, 2, 0⟩ ∧
      ∃ q, (sampleWith { skipSpent := .bool false } test frontSource () [1, 1, 1, 1]).answer = .ok q
        ∧ q.order = [(0, 1), (2, 3)] ∧ q.attempts = 3 ∧ 2 ≤ q.checks := by
  intro test
  have hnegative : RefusesNegative test := (isExact_passes (Or.inl rfl)).refusesNegative
  have hanswer : (sampleWith { skipSpent := .bool true } test frontSource () [1, 1, 1, 1]).answer
      = .ok ⟨[(0, 1), (2, 3)], 3, 2, 0⟩ := by cbv
  obtain ⟨-, hfound, -, -⟩ := skipping_only_saves_checks {} (.bool true) (.bool false) rfl rfl test
    hnegative frontSource () [1, 1, 1, 1]
  obtain ⟨q, hq, -, horder, -, hattempts, -, hchecks⟩ := hfound _ hanswer
  exact ⟨hnegative, hanswer, q, hq, horder.symm, hattempts.symm, hchecks⟩

end DegreeGraph
