import DegreeGraph.Proofs.Sampling.Pivot
import DegreeGraph.Proofs.Sampling.Progress

/-!
# The sampler never gets stuck

The sampler asks of a partner that the demands left after the edge are graphical. That says nothing
of the edges already placed, which a graph for those demands might use again. What saves it is the
order of the pivots: a node keeps its turn until its demand is met, so of two nodes that still ask
for edges and are joined already, one is the pivot, and when its turn began no node that still asks
for edges asked for less. Under these two facts the first edges of the pivot can be put into a
graph (`exists_realizes_served`), and the graph for what is left avoids all that is placed.

`Progress.IsSound` is the invariant. One step keeps it (`IsSound.commit`), and a partner is
accepted exactly if the placed edges and the new one can be completed (`IsSound.accepted_iff`).
-/

namespace DegreeGraph

open Finset

/-- A test passes exactly the sequences with a graph. -/
def IsExact (feasible : List ℤ → Bool) : Prop := ∀ ds, feasible ds = true ↔ IsGraphical ds.get

namespace Progress

/-- The nodes that are joined to `v` and still ask for edges. -/
def waiting (n : ℕ) (p : Progress) (v : Fin n) : Finset (Fin n) :=
  {j | edgeOf v j ∈ p.edges ∧ 0 < p.residual.getD j 0}

/-- It is the turn of `v`: of joined nodes that still ask for edges one is `v`, and the demands
when the turn began are graphical and none that is still open was smaller than that of `v`. -/
structure IsTurnOf (n : ℕ) (p : Progress) (v : Fin n) : Prop where
  joined : ∀ a b : Fin n, edgeOf a b ∈ p.edges → 0 < p.residual.getD a 0 → 0 < p.residual.getD b 0 →
    a = v ∨ b = v
  began : ∃ d : Fin n → ℤ, IsGraphical d ∧ served d v (p.waiting n v) = demandsIn n p.residual
    ∧ ∀ i : Fin n, 0 < p.residual.getD i 0 → d v ≤ d i

/-- The account is right, what is left is graphical, and it is the turn of the pivot. -/
structure IsSound (degrees : List ℤ) (p : Progress) : Prop extends p.Accounts degrees where
  graphical : IsGraphical (demandsIn degrees.length p.residual)
  turn : ∀ v : Fin degrees.length, IsPivot p.residual v → p.IsTurnOf degrees.length v

variable {n : ℕ} {p : Progress} {v : Fin n}

theorem mem_waiting {j : Fin n} :
    j ∈ p.waiting n v ↔ edgeOf v j ∈ p.edges ∧ 0 < p.residual.getD j 0 := by
  rw [waiting, mem_filter_univ]

/-! ## A turn begins -/

/-- A turn begins when no two nodes that ask for edges are joined. -/
theorem isTurnOf_of_apart (hgraph : IsGraphical (demandsIn n p.residual))
    (hpivot : IsPivot p.residual v)
    (hapart : ∀ a b : Fin n, edgeOf a b ∈ p.edges → 0 < p.residual.getD a 0 →
      ¬0 < p.residual.getD b 0) : p.IsTurnOf n v := by
  have hnone : p.waiting n v = ∅ := by
    refine eq_empty_of_forall_notMem fun j hj ↦ ?_
    obtain ⟨hedge, hpos⟩ := mem_waiting.mp hj
    exact hapart v j hedge hpivot.pos hpos
  refine ⟨fun a b hedge ha hb ↦ absurd hb (hapart a b hedge ha), demandsIn n p.residual, hgraph, ?_,
    fun i hi ↦ hpivot.le hi⟩
  rw [hnone, served_empty]

theorem isSound_start {degrees : List ℤ} (h : IsGraphical degrees.get) :
    (start degrees).IsSound degrees := by
  have hgraph : IsGraphical (demandsIn degrees.length (start degrees).residual) := by
    rw [start, demandsIn_length]
    exact h
  refine ⟨accounts_start degrees, hgraph, fun v hpivot ↦ ?_⟩
  exact isTurnOf_of_apart hgraph hpivot fun a b hedge ↦ absurd hedge List.not_mem_nil

/-! ## A turn goes on -/

/-- The pivot may take a node as its partner: they are not joined, and what is left is graphical.
-/
structure MayTake (n : ℕ) (p : Progress) (v j : Fin n) : Prop where
  pivot : IsPivot p.residual v
  ne : v ≠ j
  new : edgeOf v j ∉ p.edges
  graphical : IsGraphical (demandsIn n (p.lowered v j))

theorem getD_commit (hlen : p.residual.length = n) (v j i : Fin n) :
    (p.commit v j).residual.getD i 0
      = p.residual.getD i 0 - ((if i = v then 1 else 0) + if i = j then 1 else 0) := by
  rw [commit, getD_lowered p v j i (by rw [hlen]; exact i.isLt)]
  simp only [Fin.ext_iff]

/-- An edge that is placed in the turn of a node is an edge of that node. -/
theorem IsTurnOf.joined_commit (hturn : p.IsTurnOf n v) {j a b : Fin n} (hedge : edgeOf a b ∈ (p.commit v j).edges)
    (ha : 0 < (p.commit v j).residual.getD a 0) (hb : 0 < (p.commit v j).residual.getD b 0) :
    a = v ∨ b = v := by
  rcases List.mem_append.mp hedge with hold | hnew
  · exact hturn.joined a b hold (ha.trans_le (p.getD_commit_le v j a))
      (hb.trans_le (p.getD_commit_le v j b))
  · rcases edgeOf_inj.mp (List.mem_singleton.mp hnew) with ⟨hav, -⟩ | ⟨-, hbv⟩
    · exact Or.inl (Fin.ext hav)
    · exact Or.inr (Fin.ext hbv)

/-- When its demand is met, no two nodes that ask for edges are joined. -/
theorem IsTurnOf.apart_commit (hturn : p.IsTurnOf n v) {j : Fin n}
    (hmet : ¬0 < (p.commit v j).residual.getD v 0) (a b : Fin n)
    (hedge : edgeOf a b ∈ (p.commit v j).edges) (ha : 0 < (p.commit v j).residual.getD a 0) :
    ¬0 < (p.commit v j).residual.getD b 0 := by
  intro hb
  rcases hturn.joined_commit hedge ha hb with rfl | rfl
  · exact hmet ha
  · exact hmet hb

namespace MayTake

variable {j : Fin n}

theorem pos_partner (t : MayTake n p v j) (hlen : p.residual.length = n) :
    0 < p.residual.getD j 0 := by
  have hnonneg : 0 ≤ (p.commit v j).residual.getD j 0 := (isGraphical_iff.mp t.graphical).2.nonneg j
  rw [getD_commit hlen, if_neg t.ne.symm, if_pos rfl] at hnonneg
  omega

theorem waiting_commit (t : MayTake n p v j) (hlen : p.residual.length = n)
    (hopen : 0 < (p.commit v j).residual.getD v 0) :
    (p.commit v j).waiting n v = insert j (p.waiting n v) := by
  ext i
  have hi := getD_commit hlen v j i
  have hedge : edgeOf v i ∈ (p.commit v j).edges ↔ edgeOf v i ∈ p.edges ∨ i = j := by
    rw [commit, List.mem_append, List.mem_singleton, edgeOf_inj]
    have hne := t.ne
    simp only [Fin.val_inj]
    grind
  rw [mem_insert, mem_waiting, mem_waiting, hedge]
  constructor
  · rintro ⟨hold | rfl, hpos⟩
    · exact Or.inr ⟨hold, hpos.trans_le (p.getD_commit_le v j i)⟩
    · exact Or.inl rfl
  · rintro (rfl | ⟨hold, hpos⟩)
    · -- The partner asked for at least as much as the pivot, which still asks for something.
      have hle := t.pivot.le (t.pos_partner hlen)
      rw [getD_commit hlen, if_pos rfl, if_neg t.ne] at hopen
      rw [if_neg t.ne.symm, if_pos rfl] at hi
      exact ⟨Or.inr rfl, by omega⟩
    · have hij : i ≠ j := fun heq ↦ t.new (heq ▸ hold)
      refine ⟨Or.inl hold, ?_⟩
      by_cases hiv : i = v
      · rwa [hiv]
      · rw [if_neg hij, if_neg hiv] at hi
        omega

theorem isTurnOf_commit (t : MayTake n p v j) (hlen : p.residual.length = n)
    (hturn : p.IsTurnOf n v) (hopen : 0 < (p.commit v j).residual.getD v 0) :
    (p.commit v j).IsTurnOf n v := by
  obtain ⟨d, hd, hserved, hle⟩ := hturn.began
  refine ⟨fun a b ↦ hturn.joined_commit, d, hd, ?_, fun i hi ↦ ?_⟩
  · have hj : j ∉ p.waiting n v := fun hmem ↦ t.new (mem_waiting.mp hmem).1
    rw [t.waiting_commit hlen hopen, served_insert d v hj, hserved, commit,
      demandsIn_lowered hlen v j]
  · exact hle i (hi.trans_le (p.getD_commit_le v j i))

end MayTake

namespace IsSound

variable {degrees : List ℤ} {v j : Fin degrees.length}

/-- **One step keeps the invariant.** -/
theorem commit (h : p.IsSound degrees) (t : MayTake degrees.length p v j) :
    (p.commit v j).IsSound degrees := by
  refine ⟨h.toAccounts.commit v.isLt j.isLt (fun heq ↦ t.ne (Fin.ext heq)) t.new, t.graphical,
    fun w hw ↦ ?_⟩
  by_cases hopen : 0 < (p.commit v j).residual.getD v 0
  · obtain rfl := Fin.ext (hw.unique (t.pivot.commit (fun heq ↦ t.ne (Fin.ext heq).symm) hopen))
    exact t.isTurnOf_commit h.length_eq (h.turn w t.pivot) hopen
  · exact isTurnOf_of_apart t.graphical hw
      ((h.turn v t.pivot).apart_commit hopen)

/-! ## Completions -/

theorem residual_nonneg (h : p.IsSound degrees) (i : Fin degrees.length) :
    0 ≤ p.residual.getD i 0 := (isGraphical_iff.mp h.graphical).2.nonneg i

/-- Some graph for the residual demands avoids the placed edges. -/
theorem exists_disjoint (h : p.IsSound degrees) :
    ∃ G, Realizes G (demandsIn degrees.length p.residual)
      ∧ Disjoint G (edgeGraph degrees.length p.edges) := by
  cases hselect : selectPivot p.residual with
  | none =>
    -- Nothing is asked for any more.
    obtain ⟨G, hG⟩ := h.graphical
    refine ⟨G, hG, SimpleGraph.disjoint_left.mpr fun a b hab _ ↦ ?_⟩
    exact hG.not_adj (le_antisymm (selectPivot_eq_none_iff.mp hselect a) (h.residual_nonneg a)) hab
  | some w =>
    have hpivot := selectPivot_eq_some_iff.mp hselect
    obtain ⟨v, rfl⟩ : ∃ v : Fin degrees.length, w = v :=
      ⟨⟨w, h.length_eq ▸ hpivot.lt_length⟩, rfl⟩
    have hturn := h.turn v hpivot
    obtain ⟨d, hd, hserved, hle⟩ := hturn.began
    have hv : v ∉ p.waiting degrees.length v := fun hmem ↦ by
      have hlt := (h.edges _ (mem_waiting.mp hmem).1).1
      rw [edgeOf, if_neg (lt_irrefl _)] at hlt
      exact lt_irrefl _ hlt
    obtain ⟨G, hG, havoid⟩ := exists_realizes_served hd (hserved ▸ h.graphical) hv fun i hi ↦
      hle i (mem_waiting.mp hi).2
    rw [hserved] at hG
    refine ⟨G, hG, SimpleGraph.disjoint_left.mpr fun a b hab hedge ↦ ?_⟩
    have hpos {c e : Fin degrees.length} (hce : G.Adj c e) : 0 < p.residual.getD c 0 :=
      (h.residual_nonneg c).lt_of_ne fun heq ↦ hG.not_adj heq.symm hce
    rcases hturn.joined a b hedge.2 (hpos hab) (hpos hab.symm) with rfl | rfl
    · exact havoid b (mem_waiting.mpr ⟨hedge.2, hpos hab.symm⟩) hab
    · exact havoid a (mem_waiting.mpr ⟨edgeOf_comm a b ▸ hedge.2, hpos hab⟩) hab.symm

/-- **The placed edges can be completed.** -/
theorem exists_completion (h : p.IsSound degrees) :
    ∃ G : SimpleGraph (Fin degrees.length), Realizes G degrees.get ∧ Contains G p.edges := by
  obtain ⟨G, hG, hdisj⟩ := h.exists_disjoint
  exact h.toAccounts.exists_completion hG hdisj

/-! ## The verdict on a partner -/

variable {feasible : List ℤ → Bool}

/-- **A partner is accepted exactly if it is not joined yet and the placed edges and the new one
can be completed.** -/
theorem accepted_iff (h : p.IsSound degrees) (hexact : IsExact feasible) (skipSpent : Bool)
    (hpivot : IsPivot p.residual v) (hne : v ≠ j) :
    judge feasible skipSpent p v j = .accepted
      ↔ edgeOf v j ∉ p.edges ∧ ∃ G : SimpleGraph (Fin degrees.length), Realizes G degrees.get
        ∧ Contains G (p.commit v j).edges := by
  have hlen : (p.lowered v j).length = degrees.length := by rw [length_lowered, h.length_eq]
  rw [judge_eq_accepted_iff, hexact, ← isGraphical_demandsIn hlen]
  refine and_congr_right fun hnew ↦ ⟨fun ⟨_, hgraph⟩ ↦ ?_, fun ⟨G, hG, hcontains⟩ ↦ ?_⟩
  · exact (h.commit ⟨hpivot, hne, hnew, hgraph⟩).exists_completion
  · -- What the completion has besides is a graph for the demands that are left, so the partner
    -- cannot have been without demand.
    have haccounts := h.toAccounts.commit v.isLt j.isLt (fun heq ↦ hne (Fin.ext heq)) hnew
    have hgraph : IsGraphical (demandsIn degrees.length (p.lowered v j)) :=
      ⟨_, haccounts.realizes_sdiff hG hcontains⟩
    have hpos := MayTake.pos_partner ⟨hpivot, hne, hnew, hgraph⟩ h.length_eq
    exact ⟨fun hspent ↦ hpos.ne' hspent.2, hgraph⟩

/-- Every completion has an edge at the pivot that is not placed yet, and its other end is accepted.
-/
theorem exists_accepted_of_contains (h : p.IsSound degrees) (hexact : IsExact feasible)
    (skipSpent : Bool) (hpivot : IsPivot p.residual v) {G : SimpleGraph (Fin degrees.length)}
    (hG : Realizes G degrees.get) (hcontains : Contains G p.edges) :
    ∃ j, v ≠ j ∧ judge feasible skipSpent p v j = .accepted
      ∧ Contains G (p.commit v j).edges := by
  obtain ⟨j, hj⟩ := Realizes.exists_adj (h.toAccounts.realizes_sdiff hG hcontains) hpivot.pos
  have hne : v ≠ j := hj.1.ne
  have hnew : edgeOf v j ∉ p.edges := fun hmem ↦ hj.2 ⟨hne, hmem⟩
  have hmore : Contains G (p.commit v j).edges := hcontains.concat hj.1
  exact ⟨j, hne, (h.accepted_iff hexact skipSpent hpivot hne).mpr ⟨hnew, G, hG, hmore⟩, hmore⟩

/-- **Some partner of the pivot is accepted.** -/
theorem exists_accepted (h : p.IsSound degrees) (hexact : IsExact feasible) (skipSpent : Bool)
    (hpivot : IsPivot p.residual v) :
    ∃ j, v ≠ j ∧ judge feasible skipSpent p v j = .accepted := by
  obtain ⟨G, hG, hcontains⟩ := h.exists_completion
  obtain ⟨j, hne, haccepted, -⟩ :=
    h.exists_accepted_of_contains hexact skipSpent hpivot hG hcontains
  exact ⟨j, hne, haccepted⟩

end IsSound

end Progress

end DegreeGraph
