import DegreeGraph.Proofs.Sampling.Answer

/-!
# What can be sampled

Taken over all draws, the sampler answers exactly the graphs with the degrees that were asked for
(`support_eq`). That every answer is one of them is in `Answer`. For the other direction a graph is
given, and the draws are chosen so that the sampler walks along it: as long as a pivot asks for
edges, the graph has one at the pivot that is not placed yet, the test must accept its other end,
and one draw names that end. So one draw for each edge is enough, and no search needs more than one
(`exists_draws`).
-/

namespace DegreeGraph

universe u

variable {σ : Type u} {feasible : List ℤ → Bool} {settings : Settings} {source : Source σ}
  {degrees : List ℤ} {p : Progress} {s : σ} {pivot partner : ℕ} {config : Config}

/-! ## The edges of a graph -/

/-- The edges of a graph on numbered nodes, the smaller node first. -/
def edgesOf {n : ℕ} (G : SimpleGraph (Fin n)) : Set Edge :=
  {e | ∃ a b : Fin n, a < b ∧ e = (a.val, b.val) ∧ G.Adj a b}

theorem mem_edgesOf_edgeGraph {n : ℕ} {edges : List Edge} (h : AreEdges n edges) {e : Edge} :
    e ∈ edgesOf (edgeGraph n edges) ↔ e ∈ edges := by
  constructor
  · rintro ⟨a, b, hlt, rfl, -, hmem⟩
    rwa [edgeOf_of_lt hlt] at hmem
  · intro he
    exact (contains_iff.mpr ⟨h, le_rfl⟩ : Contains (edgeGraph n edges) edges) e he

theorem edgeGraph_congr {n : ℕ} {edges others : List Edge} (h : edges.Perm others) :
    edgeGraph n edges = edgeGraph n others := by
  ext a b
  exact and_congr_right fun _ ↦ h.mem_iff

/-- A graph that contains edges with its own degrees has no others. -/
theorem edgeGraph_eq_of_contains {n : ℕ} {G : SimpleGraph (Fin n)} {d : Fin n → ℤ}
    {edges : List Edge} (hG : Realizes G d) (hedges : Realizes (edgeGraph n edges) d)
    (hcontains : Contains G edges) : edgeGraph n edges = G := by
  classical
  have hle := (contains_iff.mp hcontains).2
  refine le_antisymm hle fun a b hab ↦ ?_
  have hsub : (edgeGraph n edges).neighborFinset a ⊆ G.neighborFinset a := fun w hw ↦
    (SimpleGraph.mem_neighborFinset G a w).mpr (hle ((SimpleGraph.mem_neighborFinset _ a w).mp hw))
  have hcard : (G.neighborFinset a).card ≤ ((edgeGraph n edges).neighborFinset a).card := by
    have hdegree := (realizes_iff.mp hG a).trans (realizes_iff.mp hedges a).symm
    rw [SimpleGraph.card_neighborFinset_eq_degree, SimpleGraph.card_neighborFinset_eq_degree]
    exact_mod_cast hdegree.le
  have hmem : b ∈ (edgeGraph n edges).neighborFinset a := by
    rw [Finset.eq_of_subset_of_card_le hsub hcard]
    exact (SimpleGraph.mem_neighborFinset G a b).mpr hab
  exact (SimpleGraph.mem_neighborFinset _ a b).mp hmem

/-! ## Draws that are told beforehand -/

theorem wrap_natCast {k last : ℕ} (hk : k ≤ last) : wrap last k = ⟨k, Nat.lt_succ_of_le hk⟩ := by
  refine Fin.ext ?_
  have hmod : (k : ℤ) % ((last + 1 : ℕ) : ℤ) = k := by
    rw [← Int.natCast_mod, Nat.mod_eq_of_lt (Nat.lt_succ_of_le hk)]
  simp only [wrap, hmod, Int.toNat_natCast]

theorem draw_scriptSource (earlier later : List ℤ) {k last : ℕ} (hk : k ≤ last) :
    (scriptSource (earlier ++ (k : ℤ) :: later)).draw earlier.length last
      = (⟨k, Nat.lt_succ_of_le hk⟩, earlier.length + 1) := by
  have hplace : earlier.length % (earlier ++ (k : ℤ) :: later).length = earlier.length := by
    refine Nat.mod_eq_of_lt ?_
    rw [List.length_append, List.length_cons]
    omega
  have hget : (earlier ++ (k : ℤ) :: later).getD earlier.length 0 = k := by
    rw [List.getD_eq_getElem?_getD, List.getElem?_append_right le_rfl, Nat.sub_self]
    rfl
  rw [scriptSource]
  simp only [hplace, hget, wrap_natCast hk]

/-- Every partner that is accepted can be drawn first. -/
theorem exists_draw {verdictOn : ℕ → Verdict} {pool : List ℕ}
    (hopen : settings.isUsedUp 0 = false) (hpartner : partner ∈ pool)
    (haccepted : verdictOn partner = .accepted) :
    ∃ k : ℕ, ∀ earlier later : List ℤ,
      let found := searchPool (scriptSource (earlier ++ (k : ℤ) :: later)) settings verdictOn 0 pool
        earlier.length
      found.partner = some partner ∧ found.state = earlier.length + 1 := by
  cases pool with
  | nil => exact absurd hpartner List.not_mem_nil
  | cons first others =>
    obtain ⟨k, hk, rfl⟩ := List.getElem_of_mem hpartner
    refine ⟨k, fun earlier later ↦ ?_⟩
    have hfound := searchPool_of_accepted (k := ⟨k, hk⟩) (Bool.eq_false_iff.mp hopen)
      (draw_scriptSource earlier later (Nat.le_of_lt_succ hk)) haccepted
    exact ⟨congrArg Search.partner hfound, congrArg Search.state hfound⟩

/-! ## Walking along a graph -/

variable {G : SimpleGraph (Fin degrees.length)}

namespace Progress.IsSound

/-- The end of an edge of a completion that is not placed yet can be drawn, and is accepted. -/
theorem exists_mem_accepted_of_contains (h : p.IsSound degrees) (hexact : IsExact feasible)
    (skipSpent : Bool) (hpivot : selectPivot p.residual = some pivot)
    (hG : Realizes G degrees.get) (hcontains : Contains G p.edges) :
    ∃ partner ∈ partnersOf degrees.length pivot,
      judge feasible skipSpent p pivot partner = .accepted
        ∧ Contains G (p.commit pivot partner).edges := by
  have hp := selectPivot_eq_some_iff.mp hpivot
  obtain ⟨j, hne, haccepted, hmore⟩ := h.exists_accepted_of_contains hexact skipSpent
    (v := ⟨pivot, h.length_eq ▸ hp.lt_length⟩) hp hG hcontains
  exact ⟨j, mem_partnersOf.mpr ⟨j.isLt, fun heq ↦ hne (Fin.ext heq.symm)⟩, haccepted, hmore⟩

/-- When nothing is asked for any more, the placed edges are all of a completion. -/
theorem edgeGraph_eq (h : p.IsSound degrees) (hG : Realizes G degrees.get)
    (hcontains : Contains G p.edges) (hmet : selectPivot p.residual = none) :
    edgeGraph degrees.length p.edges = G := by
  refine edgeGraph_eq_of_contains hG ?_ hcontains
  have hgraph := realizes_edgeGraph h.nodup h.edges
  have hdegree : (fun i : Fin degrees.length ↦ (degreeIn p.edges i : ℤ)) = degrees.get := by
    funext i
    have haccount := congrFun h.demandsIn_eq i
    rw [demandsIn, le_antisymm (selectPivot_eq_none_iff.mp hmet i) (h.residual_nonneg i),
      Pi.sub_apply] at haccount
    exact (sub_eq_zero.mp haccount.symm).symm
  rwa [hdegree] at hgraph

/-- **From every sound place some draws lead along a given completion.** -/
theorem exists_draws (h : p.IsSound degrees) (hexact : IsExact feasible)
    (hallows : settings.Allows 1) (hG : Realizes G degrees.get) (hcontains : Contains G p.edges) :
    ∃ draws : List ℤ, ∀ earlier : List ℤ,
      let later := runFrom feasible settings (scriptSource (earlier ++ draws)) p earlier.length
      later.givenUp? = none ∧ edgeGraph degrees.length (p.edges ++ later.edges) = G := by
  have hopen : settings.isUsedUp 0 = false := Settings.Allows.not_isUsedUp hallows Nat.one_pos
  induction hm : openDemand p.residual using Nat.strong_induction_on generalizing p with
  | _ m ih =>
    -- As in a run: a turn lowers the sum of the positive demands.
    subst hm
    cases hpivot : selectPivot p.residual with
    | none =>
      refine ⟨[], fun earlier ↦ ?_⟩
      rw [runFrom_met hpivot]
      refine ⟨rfl, ?_⟩
      rw [Run.edges, List.filterMap_nil, List.append_nil]
      exact h.edgeGraph_eq hG hcontains hpivot
    | some pivot =>
      obtain ⟨partner, hmem, haccepted, hmore⟩ :=
        h.exists_mem_accepted_of_contains hexact settings.skipSpent hpivot hG hcontains
      obtain ⟨k, hk⟩ := exists_draw hopen hmem haccepted
      have hfound (earlier later : List ℤ) :
          (search feasible settings (scriptSource (earlier ++ (k : ℤ) :: later)) p pivot
              earlier.length).partner = some partner
            ∧ (search feasible settings (scriptSource (earlier ++ (k : ℤ) :: later)) p pivot
              earlier.length).state = earlier.length + 1 := by
        rw [search, h.length_eq]
        exact hk earlier later
      have hleast := leastPositive_eq_some_iff.mpr ⟨selectPivot_eq_some_iff.mp hpivot, rfl⟩
      obtain ⟨draws, hdraws⟩ := ih _ (openDemand_commit_lt hleast partner)
        (h.step hexact hpivot (hfound [] []).1) hmore rfl
      refine ⟨(k : ℤ) :: draws, fun earlier ↦ ?_⟩
      obtain ⟨hpartner, hstate⟩ := hfound earlier draws
      have hrest := hdraws (earlier ++ [(k : ℤ)])
      simp only [List.append_assoc, List.singleton_append, List.length_append,
        List.length_singleton, Progress.commit] at hrest
      simp only [givenUp?_runFrom_turn hpivot hpartner, edges_runFrom_turn hpivot hpartner, hstate]
      exact hrest

end Progress.IsSound

/-! ## The answers over all draws -/

/-- The edge sets that degrees are answered with, over all draws. -/
def support (config : Config) (degrees : List ℤ) : Set (Set Edge) :=
  {E | ∃ (σ : Type) (source : Source σ) (state : σ) (r : Realization),
    (realizeFrom .builtIn config source state (sequenceDatum degrees)).answer = .ok r
      ∧ E = {e | e ∈ r.edges}}

/-- A graph with the degrees is answered for some script of draws. -/
theorem exists_script_answer (htest : config.HasBuiltInTest) (hbudget : config.GrantsBudget 1)
    (hG : Realizes G degrees.get) :
    ∃ (script : List ℤ) (r : Realization),
      (realizeFrom .builtIn config (scriptSource script) 0 (sequenceDatum degrees)).answer = .ok r
        ∧ r.Meets degrees ∧ edgeGraph degrees.length r.edges = G := by
  obtain ⟨test, hresolve, hexact⟩ := htest.exists_resolve
  have hpasses : test.passes degrees = true := (hexact degrees).mpr ⟨G, hG⟩
  obtain ⟨settings, hsame, hanswer⟩ := exists_settings_sampleWith (σ := ℕ) hpasses
    (hbudget.budgetFault?_eq_none degrees)
  have hallows : settings.Allows 1 := fun budget hb ↦ hbudget.allows budget (hsame ▸ hb)
  have hstart : Contains G (Progress.start degrees).edges := fun e he ↦ absurd he List.not_mem_nil
  obtain ⟨script, hdraws⟩ := (Progress.isSound_start ⟨G, hG⟩).exists_draws hexact hallows hG hstart
  obtain ⟨hdone, hedges⟩ := hdraws []
  have hfound := hanswer (scriptSource script) 0 _
    (sampleDegrees_of_givenUp?_eq_none hpasses hdone)
  refine ⟨script, _, ?_, meets_of_sampleWith hexact hfound,
    (edgeGraph_congr (perm_sortedBy edgeAtMost _)).trans hedges⟩
  rw [realizeFrom_ints hresolve]
  exact hfound

/-- **Every graph with the degrees can be sampled, and nothing else.** With one of the tests that
are always there and a budget of one draw or more for every search, the edge sets that are answered
over all draws are those of the graphs with the degrees; a script of finitely many draws is enough
for each. -/
theorem support_eq (degrees : List ℤ) (htest : config.HasBuiltInTest)
    (hbudget : config.GrantsBudget 1) :
    support config degrees
        = {E | ∃ G : SimpleGraph (Fin degrees.length), Realizes G degrees.get ∧ E = edgesOf G} ∧
      ∀ G : SimpleGraph (Fin degrees.length), Realizes G degrees.get →
        ∃ (script : List ℤ) (r : Realization),
          (realizeFrom .builtIn config (scriptSource script) 0 (sequenceDatum degrees)).answer
              = .ok r
            ∧ r.edges.Nodup ∧ {e | e ∈ r.edges} = edgesOf G := by
  have hlisted {r : Realization} (h : r.Meets degrees) :
      {e | e ∈ r.edges} = edgesOf (edgeGraph degrees.length r.edges) :=
    Set.ext fun e ↦ (mem_edgesOf_edgeGraph h.edges).symm
  have hscript (G : SimpleGraph (Fin degrees.length)) (hG : Realizes G degrees.get) :
      ∃ (script : List ℤ) (r : Realization),
        (realizeFrom .builtIn config (scriptSource script) 0 (sequenceDatum degrees)).answer = .ok r
          ∧ r.edges.Nodup ∧ {e | e ∈ r.edges} = edgesOf G := by
    obtain ⟨script, r, hanswer, hmeets, hgraph⟩ := exists_script_answer htest hbudget hG
    exact ⟨script, r, hanswer, hmeets.nodup, by rw [hlisted hmeets, hgraph]⟩
  refine ⟨Set.Subset.antisymm ?_ ?_, hscript⟩
  · rintro E ⟨σ, source, state, r, hanswer, rfl⟩
    obtain ⟨ds, hds, hmeets⟩ := meets_of_realizeFrom htest hanswer
    obtain rfl := Except.ok.inj ((degreesOf_ints degrees).symm.trans hds)
    exact ⟨_, hmeets.realizes, hlisted hmeets⟩
  · rintro E ⟨G, hG, rfl⟩
    obtain ⟨script, r, hanswer, -, hedges⟩ := hscript G hG
    exact ⟨ℕ, scriptSource script, 0, r, hanswer, hedges.symm⟩

/-- The matching that joins every other node of four, with a single draw for each search. -/
theorem support_eq_matching :
    ({ budget := .int 1 } : Config).HasBuiltInTest
      ∧ ({ budget := .int 1 } : Config).GrantsBudget 1 ∧
      ∃ (script : List ℤ) (r : Realization),
        (realizeFrom .builtIn { budget := .int 1 } (scriptSource script) 0
          (sequenceDatum [1, 1, 1, 1])).answer = .ok r
          ∧ {e | e ∈ r.edges} = ({(0, 2), (1, 3)} : Set Edge) := by
  have htest : ({ budget := .int 1 } : Config).HasBuiltInTest := Or.inl rfl
  have hbudget : ({ budget := .int 1 } : Config).GrantsBudget 1 := Or.inr ⟨1, rfl, le_rfl⟩
  have hedges : AreEdges 4 [(0, 2), (1, 3)] := by decide
  have hG : Realizes (edgeGraph 4 [(0, 2), (1, 3)]) [1, 1, 1, 1].get := by
    have hgraph := realizes_edgeGraph (by decide : [(0, 2), (1, 3)].Nodup) hedges
    have hdegree : (fun i : Fin 4 ↦ (degreeIn [(0, 2), (1, 3)] i : ℤ)) = [1, 1, 1, 1].get := by
      decide
    rwa [hdegree] at hgraph
  obtain ⟨script, r, hanswer, -, hlisted⟩ := (support_eq [1, 1, 1, 1] htest hbudget).2 _ hG
  refine ⟨htest, hbudget, script, r, hanswer, hlisted.trans (Set.ext fun e ↦ ?_)⟩
  rw [mem_edgesOf_edgeGraph hedges]
  simp

end DegreeGraph
