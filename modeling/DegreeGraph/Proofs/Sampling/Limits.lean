import DegreeGraph.Proofs.Sampling.Restarts

/-!
# Limits that are not hit

Two limits can end a sampling: the budget of draws for each search and the number of runs that may
be abandoned. A limit is looked at before every draw and after every abandoned run, but it shows
only where it is hit. So a search that has found its partner is the same search under any greater
budget (`searchPool_of_widened`), a run that has met all demands is the same run
(`runFrom_of_widened`), and an attempt that has ended well is the same attempt whatever more restarts
it might have had (`attempt_of_le`).

The budget has to be wide enough for abandoned runs as well: with a greater one such a run might
have gone on, and the answer would be another.
-/

namespace DegreeGraph

universe u

variable {σ : Type u} {feasible : List ℤ → Bool} {settings other : Settings} {source : Source σ}
  {degrees : List ℤ} {p : Progress} {state s : σ} {config : Config} {r : Realization}

/-! ## Greater budgets -/

/-- Other settings give a search as many draws or more, and treat partners without demand alike;
restarts are left open. -/
structure Settings.AreWidenedBy (settings other : Settings) : Prop where
  budget : ∀ most, other.budget = some most → ∃ least, settings.budget = some least ∧ least ≤ most
  skipSpent : settings.skipSpent = other.skipSpent

theorem Settings.AreWidenedBy.isUsedUp (h : settings.AreWidenedBy other) {n : ℕ}
    (hopen : ¬settings.isUsedUp n = true) : ¬other.isUsedUp n = true := by
  rw [Settings.isUsedUp] at hopen ⊢
  cases hmost : other.budget with
  | none => exact Bool.false_ne_true
  | some most =>
    obtain ⟨least, hleast, hle⟩ := h.budget most hmost
    rw [hleast, Option.any_some, decide_eq_true_iff] at hopen
    rw [Option.any_some, decide_eq_true_iff]
    omega

/-- A search that has found a partner would not have seen a greater budget. -/
theorem searchPool_of_widened (h : settings.AreWidenedBy other) {verdictOn : ℕ → Verdict}
    {draws : ℕ} {pool : List ℕ} {partner : ℕ}
    (hfound : (searchPool source settings verdictOn draws pool state).partner = some partner) :
    searchPool source other verdictOn draws pool state
      = searchPool source settings verdictOn draws pool state := by
  fun_induction searchPool source settings verdictOn draws pool state with
  | case1 => cases hfound
  | case2 => cases hfound
  | case3 draws state first others hopen k next hdraw partner rest trial haccepted =>
    exact searchPool_of_accepted (h.isUsedUp hopen) hdraw haccepted
  | case4 draws state first others hopen k next hdraw partner rest trial hrefused later ih =>
    rw [searchPool_of_refused (h.isUsedUp hopen) hdraw hrefused, ih hfound]

theorem search_of_widened (h : settings.AreWidenedBy other) {pivot partner : ℕ}
    (hfound : (search feasible settings source p pivot s).partner = some partner) :
    search feasible other source p pivot s = search feasible settings source p pivot s := by
  rw [search, ← h.skipSpent]
  exact searchPool_of_widened h hfound

/-- **A run that has not given up would not have seen a greater budget.** -/
theorem runFrom_of_widened (h : settings.AreWidenedBy other)
    (hdone : (runFrom feasible settings source p s).givenUp? = none) :
    runFrom feasible other source p s = runFrom feasible settings source p s := by
  induction p, s using run_induction feasible settings source with
  | met p s hpivot => rw [runFrom_met hpivot, runFrom_met hpivot]
  | stuck p s pivot hpivot hnone =>
    rw [runFrom_stuck hpivot hnone] at hdone
    simp [Run.givenUp?, turnAt, hnone] at hdone
  | turn p s pivot partner hpivot hfound ih =>
    have hsearch := search_of_widened h hfound
    have hturn : turnAt feasible other source p s pivot
        = turnAt feasible settings source p s pivot := by
      rw [turnAt, turnAt, hsearch]
    rw [givenUp?_runFrom_turn hpivot hfound] at hdone
    rw [runFrom_turn hpivot hfound, runFrom_turn hpivot (hsearch ▸ hfound), hturn, hsearch,
      ih hdone]

theorem run_of_widened (h : settings.AreWidenedBy other)
    (hdone : (run feasible settings source degrees state).givenUp? = none) :
    run feasible other source degrees state = run feasible settings source degrees state :=
  runFrom_of_widened h hdone

/-! ## More restarts -/

/-- **An attempt that has ended well would not have seen more restarts.** -/
theorem attempt_of_le {restarts more : ℕ}
    (hdone : (attempt feasible settings source degrees restarts state).last.givenUp? = none)
    (hle : (attempt feasible settings source degrees restarts state).abandoned.length ≤ more) :
    attempt feasible settings source degrees more state
      = attempt feasible settings source degrees restarts state := by
  induction restarts generalizing more state with
  | zero => exact attempt_eq_of_givenUp?_eq_none hdone more
  | succ restarts ih =>
    rw [attempt] at hdone hle ⊢
    by_cases hgiven : (run feasible settings source degrees state).givenUp?.isSome = true
    · rw [if_pos hgiven] at hdone hle ⊢
      cases more with
      | zero => exact absurd hle (Nat.not_succ_le_zero _)
      | succ more => rw [attempt, if_pos hgiven, ih hdone (Nat.le_of_succ_le_succ hle)]
    · rw [if_neg hgiven] at hdone ⊢
      exact attempt_eq_of_givenUp?_eq_none hdone more

theorem attempt_congr (hbudget : settings.budget = other.budget)
    (hskip : settings.skipSpent = other.skipSpent) {restarts : ℕ} :
    attempt feasible settings source degrees restarts state
      = attempt feasible other source degrees restarts state := by
  induction restarts generalizing state with
  | zero => exact congrArg (Attempt.mk []) (run_congr hbudget hskip)
  | succ restarts ih =>
    simp only [attempt, run_congr hbudget hskip, ih]

/-! ## Limits as they are given -/

namespace Config

/-- A budget is not less than that of the settings: it is none, or both are whole numbers in this
order. -/
def IsWidenedBy (c : Config) (budget : Datum) : Prop :=
  budget = .null ∨ ∃ least most, c.budget.toInt? = some least ∧ budget.toInt? = some most
    ∧ least ≤ most

variable {c : Config} {budget : Datum}

theorem IsWidenedBy.areWidenedBy (h : c.IsWidenedBy budget) (restarts : Datum) :
    c.settings.AreWidenedBy
      ({ c with budget := budget, restarts := restarts } : Config).settings := by
  refine ⟨fun most hmost ↦ ?_, rfl⟩
  obtain rfl | ⟨least, most', hleast, hmost', hle⟩ := h
  · cases hmost
  · let wider : Config := { c with budget := budget, restarts := restarts }
    have hwider : wider.settings.budget = some most' := settings_budget hmost'
    obtain rfl := Option.some.inj (hmost.symm.trans hwider)
    exact ⟨least, settings_budget hleast, hle⟩

theorem IsWidenedBy.budgetFault?_eq_none (h : c.IsWidenedBy budget) (restarts : Datum)
    (degrees : List ℤ) :
    ({ c with budget := budget, restarts := restarts } : Config).budgetFault? degrees = none := by
  let wider : Config := { c with budget := budget, restarts := restarts }
  have hgrants : ∃ draws, wider.GrantsBudget draws := by
    obtain hnull | ⟨-, most, -, hmost, -⟩ := h
    · exact ⟨0, Or.inl hnull⟩
    · exact ⟨most, Or.inr ⟨most, hmost, le_rfl⟩⟩
  obtain ⟨draws, hgrants⟩ := hgrants
  exact hgrants.budgetFault?_eq_none degrees

end Config

/-- Two samplings that have run, and made the same attempt, asked for the same draws and came to the
same end. -/
theorem sampleWith_eq_of_attemptAll_eq {wider : Config}
    (h : (sampleWith config feasible source state degrees).answer = .ok r)
    (hrun : (sampleWith wider feasible source state degrees).HasRun)
    (hsame : attemptAll feasible wider.settings source degrees state
      = attemptAll feasible config.settings source degrees state) :
    (sampleWith wider feasible source state degrees).answer = .ok r
      ∧ (sampleWith wider feasible source state degrees).asked
        = (sampleWith config feasible source state degrees).asked := by
  have hthis := sampleWith_of_hasRun (Or.inl ⟨r, h⟩)
  have hother := sampleWith_of_hasRun hrun
  rw [hother, hthis, hsame]
  rw [hthis] at h
  exact ⟨h, rfl⟩

/-- **A limit that was not hit makes no difference.** An answer without restarts is given under
every greater budget, and whatever is said about restarts; an answer is given under every limit of
restarts that its abandoned runs do not pass. It is the same in all its statistics, and the same
draws are asked for. -/
theorem limits_not_hit (feasible : List ℤ → Bool) (config : Config) (source : Source σ) (state : σ)
    (degrees : List ℤ) (r : Realization)
    (h : (sampleWith config feasible source state degrees).answer = .ok r) :
    let sampling := sampleWith config feasible source state degrees
    (r.restarts = 0 → ∀ budget restarts : Datum, config.IsWidenedBy budget →
      let wider := sampleWith { config with budget := budget, restarts := restarts } feasible source
        state degrees
      wider.answer = .ok r ∧ wider.asked = sampling.asked) ∧
    ∀ (restarts : Datum) (most : ℤ), restarts.toInt? = some most → (r.restarts : ℤ) ≤ most →
      let wider := sampleWith { config with restarts := restarts } feasible source state degrees
      wider.answer = .ok r ∧ wider.asked = sampling.asked := by
  intro sampling
  let a := attemptAll feasible config.settings source degrees state
  have hmade : a.IsMade feasible config.settings source degrees config.settings.restarts.toNat
      state := isMade_attempt feasible config.settings source degrees _ state
  have hrun : sampling.HasRun := Or.inl ⟨r, h⟩
  obtain ⟨-, hpasses, hbudget⟩ := sampleWith_eq_sampleDegrees hrun
  have houtcome : a.outcome = .ok r := by rw [← h, sampleWith_of_hasRun hrun]
  obtain ⟨hdone, hr⟩ := outcome_eq_ok_iff.mp houtcome
  have habandoned : r.restarts = a.abandoned.length := by rw [hr]
  constructor
  · intro hzero budget restarts hwider wider
    have hnil : a.abandoned = [] := List.length_eq_zero_iff.mp (habandoned.symm.trans hzero)
    have hfirst : (run feasible config.settings source degrees state).givenUp? = none := by
      rw [hmade.last_eq, hnil] at hdone
      exact hdone
    have hsame := run_of_widened (hwider.areWidenedBy restarts) hfirst
    have hagain := hsame.symm ▸ hfirst
    apply sampleWith_eq_of_attemptAll_eq h
    · exact Or.inl ⟨_, answer_sampleWith_of_givenUp?_eq_none hpasses
        (hwider.budgetFault?_eq_none restarts degrees) hagain⟩
    · rw [attemptAll, attemptAll, attempt_eq_of_givenUp?_eq_none hfirst,
        attempt_eq_of_givenUp?_eq_none hagain, hsame]
  · intro restarts most hmost hle wider
    let more : Config := { config with restarts := restarts }
    have hmore : more.settings.restarts = most := Config.settings_restarts hmost
    have hfit : sampleWith more feasible source state degrees
        = sampleDegrees feasible more.settings source state degrees :=
      sampleWith_of_fit hpasses hbudget (Config.countFault?_eq_none hmost)
    have hroom : a.abandoned.length ≤ most.toNat := by omega
    have hbudget' : more.settings.budget = config.settings.budget := rfl
    have hsame : attemptAll feasible more.settings source degrees state = a := by
      rw [attemptAll, hmore, attempt_congr hbudget' rfl]
      exact attempt_of_le hdone hroom
    refine sampleWith_eq_of_attemptAll_eq h ?_ hsame
    rw [hfit]
    exact Sampling.hasRun_sampleDegrees hpasses

/-- Two disjoint edges. With one draw for each, a script that fits is answered at once, and the same
with no budget and a negative limit of restarts; another script needs one restart, and more do not
matter. -/
theorem limits_not_hit_matching :
    let test : List ℤ → Bool := fun _ ↦ true
    let config : Config := { budget := .int 1, restarts := .int 1 }
    let degrees := [1, 1, 1, 1]
    (sampleWith config test (scriptSource [0, 2]) 0 degrees).answer
        = .ok ⟨[(0, 1), (2, 3)], 2, 2, 0⟩
      ∧ (sampleWith { config with budget := .null, restarts := .int (-1) } test
          (scriptSource [0, 2]) 0 degrees).answer = .ok ⟨[(0, 1), (2, 3)], 2, 2, 0⟩
      ∧ (sampleWith config test (scriptSource [0, 0, 0, 2]) 0 degrees).answer
        = .ok ⟨[(0, 1), (2, 3)], 4, 3, 1⟩
      ∧ (sampleWith { config with restarts := .int 7 } test (scriptSource [0, 0, 0, 2]) 0
          degrees).answer = .ok ⟨[(0, 1), (2, 3)], 4, 3, 1⟩ := by
  intro test config degrees
  have hfirst : (sampleWith config test (scriptSource [0, 2]) 0 degrees).answer
      = .ok ⟨[(0, 1), (2, 3)], 2, 2, 0⟩ := by cbv
  have hsecond : (sampleWith config test (scriptSource [0, 0, 0, 2]) 0 degrees).answer
      = .ok ⟨[(0, 1), (2, 3)], 4, 3, 1⟩ := by cbv
  obtain ⟨hwider, -⟩ := limits_not_hit test config (scriptSource [0, 2]) 0 degrees _ hfirst
  obtain ⟨-, hmore⟩ := limits_not_hit test config (scriptSource [0, 0, 0, 2]) 0 degrees _ hsecond
  exact ⟨hfirst, (hwider rfl .null (.int (-1)) (Or.inl rfl)).1, hsecond,
    (hmore (.int 7) 7 rfl (by decide)).1⟩

/-- With one draw more the run that was abandoned goes on, so an answer with restarts is not kept under
greater budgets. -/
example : (sampleWith { budget := .int 2, restarts := .int 1 } (fun _ ↦ true)
    (scriptSource [0, 0, 0, 2]) 0 [1, 1, 1, 1]).answer = .ok ⟨[(0, 1), (2, 3)], 3, 2, 0⟩ := by
  cbv

end DegreeGraph
