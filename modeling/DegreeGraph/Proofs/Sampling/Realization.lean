import DegreeGraph.Proofs.Sampling.Acceptance
import DegreeGraph.Sampling.Realization

/-!
# Sampling succeeds

With an exact test and a budget that lets a search try all partners, the first run for a graphical
sequence meets all demands (`meets_run`), so there are no restarts and the answer is a realization.
A sequence without a graph is refused before the first draw. What the settings say about restarts
and about partners without demand makes no difference to this.
-/

namespace DegreeGraph

universe u

variable {σ : Type u} {feasible : List ℤ → Bool} {settings : Settings} {source : Source σ}
  {degrees : List ℤ} {state : σ}

theorem total_map_le_mul {α : Type u} {xs : List α} {f : α → ℕ} {most : ℕ}
    (h : ∀ x ∈ xs, f x ≤ most) : total (xs.map f) ≤ xs.length * most := by
  have hsum := List.sum_le_card_nsmul (xs.map f) most fun k hk ↦ by
    obtain ⟨x, hx, rfl⟩ := List.mem_map.mp hk
    exact h x hx
  rwa [List.length_map, smul_eq_mul, ← total_eq_sum] at hsum

/-! ## A run that meets all demands -/

/-- Every turn of a run placed an edge within `degrees.length - 1` draws, and the edges have the
degrees. -/
structure Run.Meets (r : Run σ) (degrees : List ℤ) : Prop where
  taken : ∀ t ∈ r.turns, ∃ partner, t.partner = some partner
  draws_le : ∀ t ∈ r.turns, t.draws ≤ degrees.length - 1
  nodup : r.edges.Nodup
  edges : AreEdges degrees.length r.edges
  degree_eq : ∀ i : Fin degrees.length, (degreeIn r.edges i : ℤ) = degrees.get i

/-- A run that gave up nowhere has placed an edge at every turn. -/
theorem exists_partner_of_givenUp?_eq_none {r : Run σ} (h : r.givenUp? = none) {t : Turn}
    (ht : t ∈ r.turns) : ∃ partner, t.partner = some partner := by
  have htaken := List.find?_eq_none.mp h t ht
  rw [Option.isNone_iff_eq_none] at htaken
  exact Option.ne_none_iff_exists'.mp htaken

/-- A run that gives up nowhere ends where nothing is asked for any more. -/
theorem exists_end_of_givenUp?_eq_none
    (h : (run feasible settings source degrees state).givenUp? = none) :
    ∃ q u, Reaches feasible settings source (.start degrees) state q u
      ∧ q.edges = (run feasible settings source degrees state).edges
      ∧ selectPivot q.residual = none := by
  have hstart : Reaches feasible settings source (.start degrees) state (.start degrees) state :=
    Reaches.start
  obtain ⟨q, u, hq, hedges, hend⟩ := hstart.exists_end
  refine ⟨q, u, hq, hedges.trans (List.nil_append _), ?_⟩
  refine Option.eq_none_iff_forall_ne_some.mpr fun pivot hpivot ↦ ?_
  -- A run that ends while something is asked for has given up in its last turn.
  obtain ⟨earlier, hturns, -, -⟩ := hq.exists_earlier
  have hlast : turnAt feasible settings source q u pivot
      ∈ (run feasible settings source degrees state).turns := by
    rw [run, hturns, runFrom_stuck hpivot (hend pivot hpivot)]
    exact List.mem_append_right _ (List.mem_singleton_self _)
  obtain ⟨partner, hpartner⟩ := exists_partner_of_givenUp?_eq_none h hlast
  exact Option.some_ne_none partner (hpartner.symm.trans (hend pivot hpivot))

/-- **A run with an exact test that does not give up meets all demands of a graphical sequence.** -/
theorem meets_of_givenUp?_eq_none (hexact : IsExact feasible) (hgraph : IsGraphical degrees.get)
    (hdone : (run feasible settings source degrees state).givenUp? = none) :
    (run feasible settings source degrees state).Meets degrees := by
  have hstart : Reaches feasible settings source (.start degrees) state (.start degrees) state :=
    Reaches.start
  have hsound {p : Progress} {s : σ}
      (h : Reaches feasible settings source (.start degrees) state p s) : p.IsSound degrees :=
    h.isSound hexact (Progress.isSound_start hgraph)
  obtain ⟨q, u, hq, hlast, hmet⟩ := exists_end_of_givenUp?_eq_none hdone
  refine ⟨fun t ht ↦ exists_partner_of_givenUp?_eq_none hdone ht, fun t ht ↦ hstart.draws_le ht,
    hlast ▸ (hsound hq).nodup, hlast ▸ (hsound hq).edges, fun i ↦ ?_⟩
  have hzero : q.residual.getD i 0 = 0 :=
    le_antisymm (selectPivot_eq_none_iff.mp hmet i) ((hsound hq).residual_nonneg i)
  have haccount := congrFun (hsound hq).demandsIn_eq i
  rw [demandsIn, hzero, Pi.sub_apply] at haccount
  rw [← hlast]
  exact (sub_eq_zero.mp haccount.symm).symm

/-- **A run with an exact test and budget enough meets all demands of a graphical sequence.** -/
theorem meets_run (hexact : IsExact feasible) (hgraph : IsGraphical degrees.get)
    (hallows : settings.Allows ((degrees.length : ℤ) - 1)) (source : Source σ) (state : σ) :
    (run feasible settings source degrees state).Meets degrees := by
  have hstart : Reaches feasible settings source (.start degrees) state (.start degrees) state :=
    Reaches.start
  refine meets_of_givenUp?_eq_none hexact hgraph (List.find?_eq_none.mpr fun t ht ↦ ?_)
  obtain ⟨p, s, hp, hpivot, heq⟩ := hstart.exists_of_mem_turns ht
  have hsound := hp.isSound hexact (Progress.isSound_start hgraph)
  obtain ⟨partner, hfound⟩ := hsound.exists_partner hexact hallows source hpivot s
  have htaken : t.partner = some partner := by rw [heq, turnAt, hfound]
  rw [htaken]
  exact Bool.false_ne_true

namespace Run.Meets

variable {r : Run σ}

theorem givenUp?_eq_none (h : r.Meets degrees) : r.givenUp? = none := by
  refine List.find?_eq_none.mpr fun t ht ↦ ?_
  obtain ⟨partner, htaken⟩ := h.taken t ht
  rw [htaken]
  exact Bool.false_ne_true

/-- Every turn placed one edge. -/
theorem length_edges (h : r.Meets degrees) : r.edges.length = r.turns.length := by
  refine List.filterMap_length_eq_length.mpr fun t ht ↦ ?_
  obtain ⟨partner, htaken⟩ := h.taken t ht
  rw [Turn.edge?, htaken]
  rfl

theorem draws_le_mul (h : r.Meets degrees) :
    r.draws ≤ r.edges.length * (degrees.length - 1) := by
  rw [h.length_edges]
  exact total_map_le_mul h.draws_le

theorem two_mul_length_edges (h : r.Meets degrees) :
    2 * (r.edges.length : ℤ) = degrees.sum := by
  rw [← sum_degreeIn h.edges, ← Fin.sum_univ_getElem]
  exact Finset.sum_congr rfl fun i _ ↦ h.degree_eq i

end Run.Meets

/-! ## The answer -/

theorem attempt_eq_of_givenUp?_eq_none
    (h : (run feasible settings source degrees state).givenUp? = none) (restarts : ℕ) :
    attempt feasible settings source degrees restarts state
      = ⟨[], run feasible settings source degrees state⟩ := by
  cases restarts with
  | zero => rfl
  | succ restarts => rw [attempt, h, Option.isSome_none, if_neg Bool.false_ne_true]

/-- A first run that does not give up is answered. -/
theorem sampleDegrees_of_givenUp?_eq_none (hpasses : feasible degrees = true)
    (hdone : (run feasible settings source degrees state).givenUp? = none) :
    (sampleDegrees feasible settings source state degrees).answer
      = .ok ⟨(run feasible settings source degrees state).edges,
        (run feasible settings source degrees state).draws,
        (run feasible settings source degrees state).checks, 0⟩ := by
  have hattempt : attemptAll feasible settings source degrees state
      = ⟨[], run feasible settings source degrees state⟩ :=
    attempt_eq_of_givenUp?_eq_none hdone _
  rw [sampleDegrees, if_pos hpasses, hattempt]
  simp [Attempt.outcome, hdone, Attempt.draws, Attempt.checks, Attempt.runs]

/-- The answer for a graphical sequence is the realization of a first run that meets all demands.
-/
theorem sampleDegrees_of_isGraphical (hexact : IsExact feasible) (hgraph : IsGraphical degrees.get)
    (hallows : settings.Allows ((degrees.length : ℤ) - 1)) (source : Source σ) (state : σ) :
    ∃ r : Run σ, r.Meets degrees ∧ (sampleDegrees feasible settings source state degrees).answer
      = .ok ⟨r.edges, r.draws, r.checks, 0⟩ := by
  have hmeets := meets_run hexact hgraph hallows source state
  exact ⟨_, hmeets,
    sampleDegrees_of_givenUp?_eq_none ((hexact degrees).mpr hgraph) hmeets.givenUp?_eq_none⟩

/-! ## With settings that may be unfit -/

namespace Config

theorem countFault?_eq_none {d : Datum} {z : ℤ} (h : d.toInt? = some z) : countFault? d = none := by
  cases d with
  | int z => rw [countFault?, Datum.related_int]
  | bool b => simp [countFault?, Datum.related, Datum.relatedAtoms, Datum.numeric?]
  | _ => exact absurd h (Option.some_ne_none z).symm

theorem settings_budget {c : Config} {budget : ℤ} (h : c.budget.toInt? = some budget) :
    c.settings.budget = some budget := by
  cases hd : c.budget with
  | float x => simp [hd, Datum.toInt?] at h
  | _ => simpa [settings, hd] using h

theorem settings_restarts {c : Config} {most : ℤ} (h : c.restarts.toInt? = some most) :
    c.settings.restarts = most := by
  cases hd : c.restarts with
  | float x => simp [hd, Datum.toInt?] at h
  | _ =>
    rw [hd] at h
    simp only [settings, hd, h, Option.getD_some]

/-- The budget is no limit, or a whole number that has room for a number of draws. -/
def GrantsBudget (c : Config) (draws : ℤ) : Prop :=
  c.budget = .null ∨ ∃ budget, c.budget.toInt? = some budget ∧ draws ≤ budget

variable {c : Config} {draws : ℤ}

theorem GrantsBudget.budgetFault?_eq_none (h : c.GrantsBudget draws) (degrees : List ℤ) :
    c.budgetFault? degrees = none := by
  rw [budgetFault?]
  rcases h with hnull | ⟨budget, hbudget, -⟩
  · rw [hnull]
  · split
    · rfl
    · rw [countFault?_eq_none hbudget, ite_self]

theorem GrantsBudget.allows (h : c.GrantsBudget draws) : c.settings.Allows draws := by
  intro budget hsettings
  rcases h with hnull | ⟨most, hbudget, hle⟩
  · simp [settings, hnull, Datum.toInt?] at hsettings
  · rw [settings_budget hbudget] at hsettings
    exact Option.some.inj hsettings ▸ hle

end Config

namespace Sampling

theorem insteadOfExhausted_of_ok {s : Sampling} {r : Realization} (h : s.answer = .ok r)
    (fault : Fault) : s.insteadOfExhausted fault = s := by
  cases s
  cases h
  rfl

end Sampling

variable {config : Config}

theorem sampleWith_of_not_isGraphical (hexact : IsExact feasible)
    (hgraph : ¬IsGraphical degrees.get) (config : Config) (source : Source σ) (state : σ) :
    sampleWith config feasible source state degrees = .failed (.notRealizable degrees) := by
  have hrefused : feasible degrees = false :=
    Bool.eq_false_iff.mpr fun hpasses ↦ hgraph ((hexact degrees).mp hpasses)
  rw [sampleWith, hrefused, Bool.not_false, if_pos rfl]

/-- Degrees that pass are sampled with some settings of the same budget: a limit of restarts that is
unfit only shows in the place of an exhausted search. -/
theorem exists_settings_sampleWith (hpasses : feasible degrees = true)
    (hfault : config.budgetFault? degrees = none) :
    ∃ settings : Settings, settings.budget = config.settings.budget
      ∧ ∀ (source : Source σ) (state : σ) (r : Realization),
        (sampleDegrees feasible settings source state degrees).answer = .ok r →
        (sampleWith config feasible source state degrees).answer = .ok r := by
  simp only [sampleWith, hpasses, Bool.not_true, Bool.false_eq_true, if_false, hfault]
  cases config.restartsFault? with
  | none => exact ⟨config.settings, rfl, fun _ _ _ hanswer ↦ hanswer⟩
  | some fault =>
    refine ⟨{ config.settings with restarts := 0 }, rfl, fun _ _ _ hanswer ↦ ?_⟩
    exact (congrArg Sampling.answer (Sampling.insteadOfExhausted_of_ok hanswer fault)).trans hanswer

theorem sampleWith_of_isGraphical (hexact : IsExact feasible) (hgraph : IsGraphical degrees.get)
    (hbudget : config.GrantsBudget ((degrees.length : ℤ) - 1)) (source : Source σ) (state : σ) :
    ∃ r : Run σ, r.Meets degrees ∧ (sampleWith config feasible source state degrees).answer
      = .ok ⟨r.edges, r.draws, r.checks, 0⟩ := by
  obtain ⟨settings, hsame, hanswer⟩ := exists_settings_sampleWith (σ := σ)
    ((hexact degrees).mpr hgraph) (hbudget.budgetFault?_eq_none degrees)
  have hallows : settings.Allows ((degrees.length : ℤ) - 1) := fun budget hb ↦
    hbudget.allows budget (hsame ▸ hb)
  obtain ⟨r, hmeets, hfound⟩ := sampleDegrees_of_isGraphical hexact hgraph hallows source state
  exact ⟨r, hmeets, hanswer source state _ hfound⟩

/-- The settings name one of the tests that are always there. -/
def Config.HasBuiltInTest (config : Config) : Prop :=
  config.test = .text "erdos_gallai" ∨ config.test = .text "havel_hakimi"

theorem Config.HasBuiltInTest.exists_resolve (h : config.HasBuiltInTest) :
    ∃ test : Feasibility, Registry.builtIn.resolve config.test = .ok test
      ∧ IsExact test.passes := by
  rcases h with htest | htest
  · exact ⟨.erdosGallai, htest ▸ rfl, isExact_passes (Or.inl rfl)⟩
  · exact ⟨.havelHakimi, htest ▸ rfl, isExact_passes (Or.inr rfl)⟩

theorem realizeFrom_ints {test : Feasibility}
    (hresolve : Registry.builtIn.resolve config.test = .ok test) (source : Source σ) (state : σ)
    (degrees : List ℤ) : realizeFrom .builtIn config source state (sequenceDatum degrees)
      = sampleWith config test.passes source state degrees := by
  rw [realizeFrom, realizeBy, degreesOf_ints]
  simp only [hresolve]

theorem exists_isExact_realizeFrom (htest : config.HasBuiltInTest) (source : Source σ) (state : σ)
    (degrees : List ℤ) :
    ∃ feasible, IsExact feasible ∧ realizeFrom .builtIn config source state (sequenceDatum degrees)
      = sampleWith config feasible source state degrees := by
  obtain ⟨test, hresolve, hexact⟩ := htest.exists_resolve
  exact ⟨test.passes, hexact, realizeFrom_ints hresolve source state degrees⟩

/-- **The sampler is correct.** With one of the tests that are always there, a budget of
`degrees.length - 1` draws or more for every search, and any source of draws: degrees are refused
exactly if no graph has them, and then before the first draw; all others get a realization in the
first run, with at most `degrees.length - 1` draws for each edge. -/
theorem realizeFrom_correct (degrees : List ℤ)
    (htest : config.test = .text "erdos_gallai" ∨ config.test = .text "havel_hakimi")
    (hbudget : config.GrantsBudget ((degrees.length : ℤ) - 1)) (source : Source σ) (state : σ) :
    let sampling := realizeFrom .builtIn config source state (sequenceDatum degrees)
    (sampling.answer = .error (.notRealizable degrees)
      ↔ ¬∃ G : SimpleGraph (Fin degrees.length), Realizes G degrees.get) ∧
    ((¬∃ G : SimpleGraph (Fin degrees.length), Realizes G degrees.get) → sampling.asked = []) ∧
    ((∃ G : SimpleGraph (Fin degrees.length), Realizes G degrees.get) →
      ∃ r : Realization, sampling.answer = .ok r ∧ r.restarts = 0
        ∧ r.attempts ≤ r.iterations * (degrees.length - 1)
        ∧ r.edges.Nodup ∧ (∀ e ∈ r.edges, e.1 < e.2 ∧ e.2 < degrees.length)
        ∧ 2 * (r.edges.length : ℤ) = degrees.sum
        ∧ ∀ i : Fin degrees.length, (degreeIn r.edges i : ℤ) = degrees.get i) := by
  obtain ⟨feasible, hexact, heq⟩ := exists_isExact_realizeFrom htest source state degrees
  intro sampling
  have hsampling : sampling = sampleWith config feasible source state degrees := heq
  have hrefused (hgraph : ¬IsGraphical degrees.get) :
      sampling = .failed (.notRealizable degrees) :=
    hsampling.trans (sampleWith_of_not_isGraphical hexact hgraph config source state)
  have hfound (hgraph : IsGraphical degrees.get) :=
    hsampling ▸ sampleWith_of_isGraphical hexact hgraph hbudget source state
  refine ⟨⟨fun herror hgraph ↦ ?_, fun hgraph ↦ ?_⟩, fun hgraph ↦ ?_, fun hgraph ↦ ?_⟩
  · obtain ⟨r, -, hok⟩ := hfound hgraph
    cases herror.symm.trans hok
  · rw [hrefused hgraph, Sampling.failed]
  · rw [hrefused hgraph, Sampling.failed]
  · obtain ⟨r, hmeets, hok⟩ := hfound hgraph
    let found : Realization := ⟨r.edges, r.draws, r.checks, 0⟩
    have hperm : found.edges.Perm r.edges := perm_sortedBy edgeAtMost r.edges
    refine ⟨found, hok, rfl, hmeets.draws_le_mul, hperm.nodup_iff.mpr hmeets.nodup,
      fun e he ↦ hmeets.edges e (hperm.mem_iff.mp he), ?_, fun i ↦ ?_⟩
    · rw [hperm.length_eq, hmeets.two_mul_length_edges]
    · rw [degreeIn, hperm.countP_eq]
      exact hmeets.degree_eq i

/-- The triangle is found with the settings at their defaults, and a pair of degrees that no graph
has is refused unasked. -/
theorem realizeFrom_correct_triangle :
    (∃ r : Realization,
      (realizeFrom .builtIn {} frontSource () (sequenceDatum [2, 2, 2])).answer = .ok r
        ∧ r.restarts = 0 ∧ 2 * (r.edges.length : ℤ) = 6) ∧
      (realizeFrom .builtIn {} frontSource () (sequenceDatum [3, 1])).answer
        = .error (.notRealizable [3, 1]) := by
  have hbudget {n : ℤ} (hn : n ≤ 100000) : ({} : Config).GrantsBudget n := Or.inr ⟨_, rfl, hn⟩
  constructor
  · obtain ⟨-, -, hfound⟩ := realizeFrom_correct [2, 2, 2] (Or.inl rfl)
      (hbudget (by decide)) frontSource ()
    obtain ⟨r, hok, hrestarts, -, -, -, hlength, -⟩ :=
      hfound (ErdosGallai.passes_iff_isGraphical.mp (by decide))
    exact ⟨r, hok, hrestarts, hlength⟩
  · refine (realizeFrom_correct [3, 1] (Or.inl rfl) (hbudget (by decide)) frontSource
      ()).1.mpr fun h ↦ ?_
    exact absurd (ErdosGallai.passes_iff_isGraphical.mpr h) (by decide)

end DegreeGraph
