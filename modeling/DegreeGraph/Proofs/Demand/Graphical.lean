import DegreeGraph.Proofs.Demand.Serving

/-!
# Graphs with given demands

A graph meets demands if every node has as many edges as it asks for. `isGraphical_iff` decides
when there is such a graph: the sum is even, and no surplus is left. It is proved by serving one
node after the other: the best choice of servers leaves no surplus, so the smaller demands have a
graph, and the edges of the served node are put on top.

`exists_realizes_star` is the same step with servers given beforehand, and it is what a sampler
rests on that looks at the demands that are left and never at the edges that are there: if the node
in turn has taken its first edges so that what is left is graphical, and no other of its partners
asked for less than it did, then some graph has all of them.
-/

namespace DegreeGraph

open Finset

universe u

variable {V : Type u} {p : V} {servers given : Finset V}

/-! ## Stars -/

/-- The graph of the edges between a node and its servers. -/
def star (p : V) (servers : Finset V) : SimpleGraph V :=
  SimpleGraph.fromRel fun a b ↦ a = p ∧ b ∈ servers

theorem star_adj {a b : V} (hp : p ∉ servers) :
    (star p servers).Adj a b ↔ a = p ∧ b ∈ servers ∨ b = p ∧ a ∈ servers := by
  rw [star, SimpleGraph.fromRel_adj]
  constructor
  · exact fun h ↦ h.2
  · rintro (⟨rfl, hb⟩ | ⟨rfl, ha⟩)
    · exact ⟨fun heq ↦ hp (heq ▸ hb), Or.inl ⟨rfl, hb⟩⟩
    · exact ⟨fun heq ↦ hp (heq ▸ ha), Or.inr ⟨rfl, ha⟩⟩

/-! ## Graphs that meet demands -/

variable [Fintype V]

open scoped Classical in
/-- Every node has as many edges as it asks for. -/
def Realizes (G : SimpleGraph V) (d : V → ℤ) : Prop := ∀ v, (G.degree v : ℤ) = d v

/-- Some simple graph meets the demands. -/
def IsGraphical (d : V → ℤ) : Prop := ∃ G : SimpleGraph V, Realizes G d

variable {G H : SimpleGraph V} {d e : V → ℤ}

theorem realizes_iff [DecidableRel G.Adj] : Realizes G d ↔ ∀ v, (G.degree v : ℤ) = d v := by
  refine forall_congr' fun v ↦ ?_
  convert Iff.rfl

theorem Realizes.even_sum (h : Realizes G d) : Even (∑ v, d v) := by
  classical
  have hedges := G.sum_degrees_eq_twice_card_edges
  rw [realizes_iff] at h
  rw [← sum_congr rfl fun v _ ↦ h v, ← Nat.cast_sum, hedges]
  exact ⟨G.edgeFinset.card, by push_cast; ring⟩

theorem Realizes.not_adj (h : Realizes G d) {v w : V} (hv : d v = 0) : ¬G.Adj v w := by
  classical
  have hdeg := realizes_iff.mp h v
  rw [hv, Nat.cast_eq_zero, G.degree_eq_zero] at hdeg
  exact hdeg w

theorem Realizes.exists_adj (h : Realizes G d) {v : V} (hv : 0 < d v) : ∃ w, G.Adj v w := by
  classical
  have hdeg := realizes_iff.mp h v
  by_contra hnone
  rw [(G.degree_eq_zero v).mpr fun w hadj ↦ hnone ⟨w, hadj⟩] at hdeg
  exact hv.ne hdeg

/-! ## Graphs on top of each other -/

theorem Realizes.sup (hG : Realizes G d) (hH : Realizes H e) (hdisj : Disjoint G H) :
    Realizes (G ⊔ H) (d + e) := by
  classical
  rw [realizes_iff] at hG hH ⊢
  intro v
  have hnbr := card_union_of_disjoint (SimpleGraph.disjoint_neighborFinset_of_disjoint G H v hdisj)
  rw [← SimpleGraph.neighborFinset_sup] at hnbr
  rw [Pi.add_apply, ← hG v, ← hH v]
  simp only [← SimpleGraph.card_neighborFinset_eq_degree]
  exact_mod_cast hnbr

theorem Realizes.sdiff (hG : Realizes G d) (hH : Realizes H e) (hle : H ≤ G) :
    Realizes (G \ H) (d - e) := by
  classical
  have hself : Realizes (G \ H) fun v ↦ ((G \ H).degree v : ℤ) := realizes_iff.mpr fun v ↦ rfl
  have hsum := hself.sup hH disjoint_sdiff_self_left
  rw [sdiff_sup_cancel hle, realizes_iff] at hsum
  rw [realizes_iff] at hG ⊢
  intro v
  rw [Pi.sub_apply, ← hG v, hsum v, Pi.add_apply, add_sub_cancel_right]

/-! ## Serving a node in a graph -/

variable [DecidableEq V]

theorem realizes_star (hp : p ∉ servers) :
    Realizes (star p servers)
      fun v ↦ (if v = p then (servers.card : ℤ) else 0) + if v ∈ servers then 1 else 0 := by
  classical
  refine realizes_iff.mpr fun v ↦ ?_
  have hnbr : (star p servers).neighborFinset v
      = (if v = p then servers else ∅) ∪ if v ∈ servers then {p} else ∅ := by
    ext w
    rw [SimpleGraph.mem_neighborFinset, star_adj hp]
    split_ifs <;> simp_all
  rw [← SimpleGraph.card_neighborFinset_eq_degree, hnbr]
  by_cases hv : v = p
  · simp [hv, hp]
  · by_cases hs : v ∈ servers <;> simp [hv, hs]

theorem Realizes.sup_star (h : Realizes G (served d p servers)) (hp : p ∉ servers)
    (hnew : ∀ v ∈ servers, ¬G.Adj p v) : Realizes (G ⊔ star p servers) d := by
  have hdisj : Disjoint G (star p servers) := by
    refine SimpleGraph.disjoint_left.mpr fun a b hab hstar ↦ ?_
    rcases (star_adj hp).mp hstar with ⟨rfl, hb⟩ | ⟨rfl, ha⟩
    · exact hnew b hb hab
    · exact hnew a ha hab.symm
  have hsum := h.sup (realizes_star hp) hdisj
  intro v
  rw [hsum v, Pi.add_apply, served]
  ring

theorem Realizes.sdiff_star (h : Realizes G d) (hp : p ∉ servers)
    (hall : ∀ v ∈ servers, G.Adj p v) : Realizes (G \ star p servers) (served d p servers) := by
  have hle : star p servers ≤ G := by
    intro a b hab
    rcases (star_adj hp).mp hab with ⟨rfl, hb⟩ | ⟨rfl, ha⟩
    · exact hall b hb
    · exact (hall a ha).symm
  have hdiff := h.sdiff (realizes_star hp) hle
  intro v
  rw [hdiff v, Pi.sub_apply, served]
  ring

/-! ## The condition is necessary -/

/-- The neighbours of a node are low, or among the nodes that are not low, itself left out. -/
theorem degree_le_of_notMem (G : SimpleGraph V) [DecidableRel G.Adj] (low : Finset V) {v : V}
    (hv : v ∉ low) :
    (G.degree v : ℤ) ≤ (low.bipartiteAbove G.Adj v).card + (Fintype.card V - 1 - low.card) := by
  have hsub : G.neighborFinset v ⊆ low.bipartiteAbove G.Adj v ∪ lowᶜ.erase v := by
    intro w hw
    have hadj : G.Adj v w := (G.mem_neighborFinset v w).mp hw
    by_cases hlow : w ∈ low
    · exact mem_union_left _ ((mem_bipartiteAbove _).mpr ⟨hlow, hadj⟩)
    · exact mem_union_right _ (mem_erase.mpr ⟨hadj.ne', mem_compl.mpr hlow⟩)
  have hcard := (card_le_card hsub).trans (card_union_le _ _)
  have hcompl := card_add_card_compl low
  have hpos : 0 < lowᶜ.card := card_pos.mpr ⟨v, mem_compl.mpr hv⟩
  rw [G.card_neighborFinset_eq_degree, card_erase_of_mem (mem_compl.mpr hv)] at hcard
  omega

theorem Realizes.isSupplied (h : Realizes G d) : IsSupplied d := by
  classical
  rw [realizes_iff] at h
  intro high low hdisj
  have hhigh : ∑ v ∈ high, d v
      ≤ ∑ v ∈ high, ((low.bipartiteAbove G.Adj v).card : ℤ)
        + high.card * (Fintype.card V - 1 - low.card) := by
    rw [← nsmul_eq_mul, ← sum_const, ← sum_add_distrib]
    refine sum_le_sum fun v hv ↦ ?_
    rw [← h v]
    exact degree_le_of_notMem G low (disjoint_left.mp hdisj hv)
  -- The edges between the sides are counted from either end.
  have hcount : ∑ v ∈ high, (low.bipartiteAbove G.Adj v).card
      = ∑ w ∈ low, (high.bipartiteBelow G.Adj w).card :=
    sum_card_bipartiteAbove_eq_sum_card_bipartiteBelow G.Adj
  have hlow : ∑ w ∈ low, ((high.bipartiteBelow G.Adj w).card : ℤ) ≤ ∑ w ∈ low, d w := by
    refine sum_le_sum fun w _ ↦ ?_
    rw [← h w, ← G.card_neighborFinset_eq_degree]
    refine Nat.cast_le.mpr (card_le_card fun v hv ↦ ?_)
    exact (G.mem_neighborFinset w v).mpr ((mem_bipartiteBelow _).mp hv).2.symm
  have hcast := congrArg (Nat.cast : ℕ → ℤ) hcount
  push_cast at hcast
  rw [surplus]
  omega

/-! ## The condition is sufficient -/

/-- The edges of a node that is served by a best choice go on top of a graph for what is left. -/
theorem IsBestChoice.realizes_sup_star (h : IsBestChoice d p given servers)
    (hG : Realizes G (served d p servers)) : Realizes (G ⊔ star p servers) d :=
  hG.sup_star h.notMem fun _ _ ↦ hG.not_adj h.served_self_eq_zero

/-- Serving a node leaves fewer nodes that ask for edges. -/
theorem IsBestChoice.card_served_ne_zero_lt (h : IsBestChoice d p given servers)
    (hleft : IsSupplied (served d p servers)) (hp : d p ≠ 0) :
    Finset.card {v | served d p servers v ≠ 0} < Finset.card {v | d v ≠ 0} := by
  refine card_lt_card ⟨fun v hv ↦ ?_, fun hsub ↦ ?_⟩
  · have hnonneg := hleft.nonneg v
    have hopen : served d p servers v ≠ 0 := (mem_filter_univ v).mp hv
    have hle : served d p servers v ≤ d v := by
      rw [served]
      split_ifs <;> omega
    rw [mem_filter_univ]
    omega
  · exact (mem_filter_univ p).mp (hsub ((mem_filter_univ p).mpr hp)) h.served_self_eq_zero

/-- Demands are met by meeting one of them with the best servers, and the others in a smaller
graph. -/
theorem isGraphical_of_isSupplied (heven : Even (∑ v, d v)) (hd : IsSupplied d) :
    IsGraphical d := by
  induction hm : Finset.card {v | d v ≠ 0} using Nat.strong_induction_on generalizing d with
  | _ m ih =>
    -- The induction is on the number of nodes that ask for edges.
    subst hm
    by_cases hzero : ∀ v, d v = 0
    · classical exact ⟨⊥, realizes_iff.mpr fun v ↦ by simp [hzero v]⟩
    obtain ⟨p, hp⟩ := not_forall.mp hzero
    obtain ⟨servers, hbest⟩ := exists_isBestChoice hd (notMem_empty p) (by simpa using hd.nonneg p)
      (by simp)
    have hleft : IsSupplied (served d p servers) :=
      hbest.isSupplied hd heven (by rwa [served_empty])
    obtain ⟨G, hG⟩ := ih _ (hbest.card_served_ne_zero_lt hleft hp)
      (even_sum_served heven p servers) hleft rfl
    exact ⟨G ⊔ star p servers, hbest.realizes_sup_star hG⟩

/-- **Demands have a graph exactly if their sum is even and no surplus is left.** -/
theorem isGraphical_iff : IsGraphical d ↔ Even (∑ v, d v) ∧ IsSupplied d :=
  ⟨fun ⟨_, h⟩ ↦ ⟨h.even_sum, h.isSupplied⟩, fun ⟨heven, hd⟩ ↦ isGraphical_of_isSupplied heven hd⟩

/-- Serving a node with the greatest other demands changes nothing about there being a graph. -/
theorem IsBestChoice.isGraphical_served_iff (h : IsBestChoice d p ∅ servers) :
    IsGraphical (served d p servers) ↔ IsGraphical d := by
  constructor
  · rintro ⟨G, hG⟩
    exact ⟨G ⊔ star p servers, h.realizes_sup_star hG⟩
  · intro hd
    obtain ⟨heven, hd⟩ := isGraphical_iff.mp hd
    exact isGraphical_of_isSupplied (even_sum_served heven p servers)
      (h.isSupplied hd heven (by rwa [served_empty]))

/-! ## Servers given beforehand -/

/-- **The first edges of a node have a graph if what they leave is graphical.** -/
theorem exists_realizes_star (hd : IsGraphical d) (hgiven : IsGraphical (served d p given))
    (hp : p ∉ given) (hle : ∀ v ∈ given, d p ≤ d v) :
    ∃ G, Realizes G d ∧ ∀ v ∈ given, G.Adj p v := by
  obtain ⟨heven, hd⟩ := isGraphical_iff.mp hd
  have hleft := (isGraphical_iff.mp hgiven).2
  have hcard : (given.card : ℤ) ≤ d p := by
    have hnonneg := hleft.nonneg p
    rw [served_self hp] at hnonneg
    omega
  obtain ⟨servers, hbest⟩ := exists_isBestChoice hd hp hcard hle
  obtain ⟨G, hG⟩ := isGraphical_of_isSupplied (even_sum_served heven p servers)
    (hbest.isSupplied hd heven hleft)
  refine ⟨G ⊔ star p servers, hbest.realizes_sup_star hG, fun v hv ↦ ?_⟩
  exact Or.inr ((star_adj hbest.notMem).mpr (Or.inl ⟨rfl, hbest.given_subset hv⟩))

/-- What the first edges of a node leave has a graph without them. -/
theorem exists_realizes_served (hd : IsGraphical d) (hgiven : IsGraphical (served d p given))
    (hp : p ∉ given) (hle : ∀ v ∈ given, d p ≤ d v) :
    ∃ G, Realizes G (served d p given) ∧ ∀ v ∈ given, ¬G.Adj p v := by
  obtain ⟨G, hG, hall⟩ := exists_realizes_star hd hgiven hp hle
  refine ⟨G \ star p given, hG.sdiff_star hp hall, fun v hv hadj ↦ ?_⟩
  exact hadj.2 ((star_adj hp).mpr (Or.inl ⟨rfl, hv⟩))

end DegreeGraph
