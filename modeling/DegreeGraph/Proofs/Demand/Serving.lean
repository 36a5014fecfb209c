import DegreeGraph.Proofs.Demand.Surplus

/-!
# Serving one node

A node with demand `m` is served by `m` others: each gives it one edge, so its demand is met and
each of theirs falls by one. `IsBestChoice.isSupplied` says that no surplus arises if the servers
are well chosen. Some of them are given beforehand, and the demands that are left by those alone must
have no surplus; the rest are the greatest demands among the other nodes.

## The argument

A pair of sets is compared with the pair in which exactly the servers are high and all others low.
As long as one of its nodes stands on the wrong side, two such nodes can be found whose moves,
taken one at a time, change the surplus by opposite terms, up to one for the edge that one of them
gives. Both pairs after the move are closer to the servers and have no surplus, so twice the
surplus is at most one.

Where a node moves depends only on the order of the demands, but for the given servers that are
low: these cannot move up by comparison with another node. They are the reason for the hypothesis
that the served node asks for no more than they do, and without it the statement is false.
-/

namespace DegreeGraph

open Finset

universe u

variable {V : Type u} [DecidableEq V]

/-- The demands that are left when a node has got an edge from each of its servers. -/
def served (d : V → ℤ) (p : V) (servers : Finset V) : V → ℤ :=
  fun v ↦ d v - (if v = p then (servers.card : ℤ) else 0) - (if v ∈ servers then 1 else 0)

variable {d : V → ℤ} {p v : V} {servers given high low : Finset V}

/-! ## The demands that are left -/

theorem served_self (h : p ∉ servers) : served d p servers p = d p - servers.card := by
  simp [served, h]

theorem served_of_mem (h : v ∈ servers) (hp : p ∉ servers) : served d p servers v = d v - 1 := by
  have hv : v ≠ p := fun heq ↦ hp (heq ▸ h)
  simp [served, h, hv]

theorem served_of_notMem (h : v ∉ servers) (hp : v ≠ p) : served d p servers v = d v := by
  simp [served, h, hp]

theorem served_empty (d : V → ℤ) (p : V) : served d p ∅ = d := by
  funext v
  simp [served]

theorem served_insert (d : V → ℤ) (p : V) (hv : v ∉ servers) :
    served d p (insert v servers) = served (served d p servers) p {v} := by
  funext w
  have hmem : (if w ∈ insert v servers then (1 : ℤ) else 0)
      = (if w ∈ servers then 1 else 0) + if w ∈ ({v} : Finset V) then 1 else 0 := by
    simp only [mem_insert, mem_singleton]
    split_ifs <;> simp_all
  rw [served, served, served, hmem, card_insert_of_notMem hv, card_singleton]
  split_ifs <;> push_cast <;> ring

theorem sum_served (d : V → ℤ) (p : V) (servers s : Finset V) :
    ∑ v ∈ s, served d p servers v
      = ∑ v ∈ s, d v - (if p ∈ s then (servers.card : ℤ) else 0) - (s ∩ servers).card := by
  simp only [served, sum_sub_distrib, sum_ite_eq', sum_boole, filter_mem_eq_inter]

/-! ## Nodes on the wrong side -/

theorem card_symmDiff_erase_lt {s t : Finset V} (hs : v ∈ s) (ht : v ∉ t) :
    (symmDiff (s.erase v) t).card < (symmDiff s t).card := by
  refine card_lt_card ⟨fun w hw ↦ ?_, fun hsub ↦ ?_⟩
  · grind [mem_symmDiff]
  · have hv : v ∈ symmDiff s t := mem_symmDiff.mpr (Or.inl ⟨hs, ht⟩)
    grind [mem_symmDiff]

theorem card_symmDiff_insert_lt {s t : Finset V} (hs : v ∉ s) (ht : v ∈ t) :
    (symmDiff (insert v s) t).card < (symmDiff s t).card := by
  refine card_lt_card ⟨fun w hw ↦ ?_, fun hsub ↦ ?_⟩
  · grind [mem_symmDiff]
  · have hv : v ∈ symmDiff s t := mem_symmDiff.mpr (Or.inr ⟨ht, hs⟩)
    grind [mem_symmDiff]

/-! ## The greatest demands -/

theorem exists_greatest (d : V → ℤ) (s : Finset V) {k : ℕ} (hk : k ≤ s.card) :
    ∃ t ⊆ s, t.card = k ∧ ∀ v ∈ t, ∀ w ∈ s, w ∉ t → d w ≤ d v := by
  induction k with
  | zero => exact ⟨∅, empty_subset s, rfl, by simp⟩
  | succ k ih =>
    obtain ⟨t, hts, hcard, hle⟩ := ih (by omega)
    have hrest : (s \ t).Nonempty := by
      rw [← card_pos, card_sdiff_of_subset hts]
      omega
    obtain ⟨m, hm, hmax⟩ := exists_max_image (s \ t) d hrest
    obtain ⟨hms, hmt⟩ := mem_sdiff.mp hm
    refine ⟨insert m t, insert_subset hms hts, by rw [card_insert_of_notMem hmt, hcard], ?_⟩
    intro v hv w hw hwt
    have hwt' : w ∉ t := fun hmem ↦ hwt (mem_insert_of_mem hmem)
    rcases mem_insert.mp hv with rfl | hv
    · exact hmax w (mem_sdiff.mpr ⟨hw, hwt'⟩)
    · exact hle v hv w hw hwt'

/-! ## The choice of the servers -/

/-- Servers of a node that have no surplus to fear: as many as it asks for, the given ones among
them and no smaller than its own demand, the others no smaller than any demand left out. -/
structure IsBestChoice (d : V → ℤ) (p : V) (given servers : Finset V) : Prop where
  notMem : p ∉ servers
  card_eq : (servers.card : ℤ) = d p
  given_subset : given ⊆ servers
  le_given : ∀ v ∈ given, d p ≤ d v
  le_chosen : ∀ v ∈ servers \ given, ∀ w ∉ servers, w ≠ p → d w ≤ d v

theorem IsBestChoice.served_self_eq_zero (h : IsBestChoice d p given servers) :
    served d p servers p = 0 := by
  rw [served_self h.notMem, h.card_eq, sub_self]

/-! ## What the demands before say -/

variable [Fintype V]

theorem even_sum_served (h : Even (∑ v, d v)) (p : V) (servers : Finset V) :
    Even (∑ v, served d p servers v) := by
  rw [sum_served, if_pos (mem_univ p), univ_inter, sub_sub]
  exact h.sub ⟨_, rfl⟩

/-- The surplus that is left when the served node counts as low. -/
theorem surplus_served (d : V → ℤ) (servers : Finset V) (hhigh : p ∉ high) (hlow : p ∈ low) :
    surplus (served d p servers) high low
      = surplus d high low - (high ∩ servers).card + (low ∩ servers).card + servers.card := by
  rw [surplus, surplus, sum_served, sum_served, if_neg hhigh, if_pos hlow]
  ring

theorem IsSupplied.surplus_served_le (h : IsSupplied d)
    (hcard : (servers.card : ℤ) = d p) (hdisj : Disjoint high low) (hlow : p ∈ low) :
    surplus (served d p servers) high low
      ≤ high.card - (high ∩ servers).card + (low ∩ servers).card := by
  have hhigh : p ∉ high := disjoint_right.mp hdisj hlow
  have hout := h high (low.erase p) (disjoint_of_subset_right (erase_subset p low) hdisj)
  rw [surplus_erase_low d high hlow] at hout
  rw [surplus_served d servers hhigh hlow]
  omega

theorem IsSupplied.surplus_served_le_of_high (h : IsSupplied d)
    (hcard : (servers.card : ℤ) = d p) (hdisj : Disjoint high low) (hlow : p ∈ low) :
    surplus (served d p servers) high low
      ≤ high.card + (Fintype.card V - low.card) - servers.card - (high ∩ servers).card
        + (low ∩ servers).card := by
  have hhigh : p ∉ high := disjoint_right.mp hdisj hlow
  have hup : Disjoint (insert p high) (low.erase p) := by
    rw [disjoint_insert_left]
    exact ⟨notMem_erase p low, disjoint_of_subset_right (erase_subset p low) hdisj⟩
  have hpos : 0 < low.card := card_pos.mpr ⟨p, hlow⟩
  have hout := h (insert p high) (low.erase p) hup
  rw [surplus_insert_high d _ hhigh, surplus_erase_low d high hlow, card_erase_of_mem hlow] at hout
  rw [surplus_served d servers hhigh hlow]
  omega

/-- The demands that the given servers leave bound the surplus that all servers leave. -/
theorem IsSupplied.surplus_served_le_of_given (h : IsSupplied (served d p given))
    (hgiven : given ⊆ servers) (hdisj : Disjoint high low) (hlow : p ∈ low) :
    surplus (served d p servers) high low
      ≤ (servers \ given).card - (high ∩ (servers \ given)).card
        + (low ∩ (servers \ given)).card := by
  have hhigh : p ∉ high := disjoint_right.mp hdisj hlow
  have hleft := h high low hdisj
  have hsplit : ∀ s : Finset V,
      (s ∩ servers).card = (s ∩ given).card + (s ∩ (servers \ given)).card := by
    intro s
    rw [← card_union_of_disjoint, ← inter_union_distrib_left, union_sdiff_of_subset hgiven]
    exact disjoint_of_subset_left inter_subset_right
      (disjoint_of_subset_right inter_subset_right disjoint_sdiff)
  have hcard : (servers \ given).card + given.card = servers.card :=
    card_sdiff_add_card_eq_card hgiven
  rw [surplus_served d given hhigh hlow] at hleft
  rw [surplus_served d servers hhigh hlow, hsplit high, hsplit low]
  omega

/-! ## A choice that leaves no surplus -/

theorem exists_isBestChoice (hd : IsSupplied d) (hp : p ∉ given) (hcard : (given.card : ℤ) ≤ d p)
    (hle : ∀ v ∈ given, d p ≤ d v) : ∃ servers, IsBestChoice d p given servers := by
  have hroom : (d p).toNat - given.card ≤ ((insert p given)ᶜ).card := by
    have hlt := hd.lt_card p
    have hcompl := card_add_card_compl (insert p given)
    rw [card_insert_of_notMem hp] at hcompl
    omega
  obtain ⟨chosen, hsub, hchosen, hmax⟩ := exists_greatest d _ hroom
  have hout {v : V} (hv : v ∈ chosen) : v ≠ p ∧ v ∉ given := by
    simpa [not_or] using hsub hv
  refine ⟨given ∪ chosen, ?_, ?_, subset_union_left, hle, ?_⟩
  · exact notMem_union.mpr ⟨hp, fun hmem ↦ (hout hmem).1 rfl⟩
  · rw [card_union_of_disjoint (disjoint_right.mpr fun v hv ↦ (hout hv).2), hchosen]
    omega
  · intro v hv w hw hwp
    have hv' : v ∈ chosen := by
      rw [union_sdiff_left] at hv
      exact (mem_sdiff.mp hv).1
    obtain ⟨hwg, hwc⟩ := notMem_union.mp hw
    exact hmax v hv' w (by simp [hwp, hwg]) hwc

/-- How many nodes stand on the wrong side if the servers ought to be high and all others low. -/
def misplaced (servers high low : Finset V) : ℕ :=
  (symmDiff high servers).card + (symmDiff low serversᶜ).card

/-- A pair that no two moves can improve has no surplus. -/
theorem IsBestChoice.surplus_settled (h : IsBestChoice d p given servers) (hd : IsSupplied d)
    (hgiven : IsSupplied (served d p given)) (hdisj : Disjoint high low) (hlow : p ∈ low)
    (hsettled : servers \ given ⊆ high
      ∨ high ⊆ servers ∧ (Disjoint low servers ∨ lowᶜ ⊆ servers)) :
    surplus (served d p servers) high low ≤ 0 := by
  rcases hsettled with hup | ⟨hhigh, hnone | hall⟩
  · have hout := hgiven.surplus_served_le_of_given h.given_subset hdisj hlow
    have hin : low ∩ (servers \ given) = ∅ :=
      disjoint_iff_inter_eq_empty.mp (disjoint_of_subset_right hup hdisj.symm)
    rw [inter_eq_right.mpr hup, hin, card_empty] at hout
    omega
  · have hout := hd.surplus_served_le h.card_eq hdisj hlow
    rw [inter_eq_left.mpr hhigh, disjoint_iff_inter_eq_empty.mp hnone, card_empty] at hout
    omega
  · have hout := hd.surplus_served_le_of_high h.card_eq hdisj hlow
    have hcount : (low ∩ servers).card + lowᶜ.card = servers.card := by
      rw [← inter_eq_right.mpr hall, ← sdiff_eq_inter_compl, inter_comm, card_inter_add_card_sdiff]
    have hcompl : low.card + lowᶜ.card = Fintype.card V := card_add_card_compl low
    rw [inter_eq_left.mpr hhigh] at hout
    omega

/-- A server goes from low to neither side, another node the other way. -/
theorem IsBestChoice.surplus_of_low_moves (h : IsBestChoice d p given servers)
    (hhigh : high ⊆ servers) (hdisj : Disjoint high low) (hlow : p ∈ low) {z w : V} (hz : z ∈ low)
    (hzs : z ∈ servers) (hw : w ∉ low) (hws : w ∉ servers)
    (hup : surplus (served d p servers) high (low.erase z) ≤ 0)
    (hdown : surplus (served d p servers) high (insert w low) ≤ 0) :
    surplus (served d p servers) high low ≤ 0 := by
  have hwp : w ≠ p := fun heq ↦ hw (heq ▸ hlow)
  rw [surplus_erase_low _ high hz, served_of_mem hzs h.notMem] at hup
  rw [surplus_insert_low _ high hw, served_of_notMem hws hwp] at hdown
  by_cases hzg : z ∈ given
  · -- A given server asks for more edges than there are high nodes.
    have hlt : high.card < servers.card :=
      card_lt_card ⟨hhigh, fun hsub ↦ disjoint_left.mp hdisj (hsub hzs) hz⟩
    have hle := h.le_given z hzg
    have hcard := h.card_eq
    omega
  · have hle := h.le_chosen z (mem_sdiff.mpr ⟨hzs, hzg⟩) w hws hwp
    omega

/-- A node that is no server leaves the high side, and a chosen server moves towards it. -/
theorem IsBestChoice.surplus_of_high_moves (h : IsBestChoice d p given servers)
    (heven : Even (∑ v, d v)) (hdisj : Disjoint high low) (hlow : p ∈ low) {x y : V}
    (hx : x ∈ servers \ given) (hxh : x ∉ high) (hy : y ∈ high) (hys : y ∉ servers)
    (hdown : surplus (served d p servers) (high.erase y) low ≤ 0)
    (hup : x ∉ low → surplus (served d p servers) (insert x high) low ≤ 0)
    (hout : x ∈ low → surplus (served d p servers) high (low.erase x) ≤ 0) :
    surplus (served d p servers) high low ≤ 0 := by
  have hyp : y ≠ p := fun heq ↦ disjoint_left.mp hdisj hy (heq ▸ hlow)
  have hle := h.le_chosen x hx y hys hyp
  have hxs := (mem_sdiff.mp hx).1
  rw [surplus_erase_high _ low hy, served_of_notMem hys hyp] at hdown
  by_cases hxl : x ∈ low
  · have hout := hout hxl
    rw [surplus_erase_low _ high hxl, served_of_mem hxs h.notMem] at hout
    have hcard : high.card + low.card = (high ∪ low).card := (card_union_of_disjoint hdisj).symm
    by_cases hall : high ∪ low = univ
    · -- No node is between the sides: the surplus is at most one, and even.
      have hpar := even_surplus (even_sum_served heven p servers) hdisj hall
      rw [hall, card_univ] at hcard
      grind
    · have hlt : (high ∪ low).card < Fintype.card V := card_lt_card (ssubset_univ_iff.mpr hall)
      omega
  · have hup := hup hxl
    rw [surplus_insert_high _ low hxh, served_of_mem hxs h.notMem] at hup
    omega

/-- With the served node low, there is no surplus. -/
theorem IsBestChoice.surplus_served_nonpos (h : IsBestChoice d p given servers) (hd : IsSupplied d)
    (heven : Even (∑ v, d v)) (hgiven : IsSupplied (served d p given)) (hdisj : Disjoint high low)
    (hlow : p ∈ low) : surplus (served d p servers) high low ≤ 0 := by
  induction hm : misplaced servers high low using Nat.strong_induction_on generalizing high low with
  | _ m ih =>
    subst hm
    -- Every move below takes a node to the side where it ought to be, so the hypothesis of the
    -- induction is about the pair after the move.
    have hserver {z : V} (hz : z ∈ servers) : p ∈ low.erase z :=
      mem_erase.mpr ⟨fun heq ↦ h.notMem (heq ▸ hz), hlow⟩
    have hdrop {z : V} (hz : z ∈ low) (hzs : z ∈ servers) :
        surplus (served d p servers) high (low.erase z) ≤ 0 := by
      refine ih _ (Nat.add_lt_add_left (card_symmDiff_erase_lt hz ?_) _)
        (disjoint_of_subset_right (erase_subset z low) hdisj) (hserver hzs) rfl
      exact notMem_compl.mpr hzs
    by_cases hup : servers \ given ⊆ high
    · exact h.surplus_settled hd hgiven hdisj hlow (Or.inl hup)
    obtain ⟨x, hx, hxh⟩ := not_subset.mp hup
    have hxs := (mem_sdiff.mp hx).1
    by_cases hhigh : high ⊆ servers
    · by_cases hnone : Disjoint low servers
      · exact h.surplus_settled hd hgiven hdisj hlow (Or.inr ⟨hhigh, Or.inl hnone⟩)
      by_cases hall : lowᶜ ⊆ servers
      · exact h.surplus_settled hd hgiven hdisj hlow (Or.inr ⟨hhigh, Or.inr hall⟩)
      obtain ⟨z, hz, hzs⟩ := not_disjoint_iff.mp hnone
      obtain ⟨w, hwl, hws⟩ := not_subset.mp hall
      have hw : w ∉ low := mem_compl.mp hwl
      refine h.surplus_of_low_moves hhigh hdisj hlow hz hzs hw hws (hdrop hz hzs) ?_
      refine ih _ (Nat.add_lt_add_left (card_symmDiff_insert_lt hw (mem_compl.mpr hws)) _) ?_
        (mem_insert_of_mem hlow) rfl
      exact disjoint_insert_right.mpr ⟨fun hmem ↦ hws (hhigh hmem), hdisj⟩
    · obtain ⟨y, hy, hys⟩ := not_subset.mp hhigh
      refine h.surplus_of_high_moves heven hdisj hlow hx hxh hy hys ?_ (fun hxl ↦ ?_)
        fun hxl ↦ hdrop hxl hxs
      · exact ih _ (Nat.add_lt_add_right (card_symmDiff_erase_lt hy hys) _)
          (disjoint_of_subset_left (erase_subset y high) hdisj) hlow rfl
      · exact ih _ (Nat.add_lt_add_right (card_symmDiff_insert_lt hxh hxs) _)
          (disjoint_insert_left.mpr ⟨hxl, hdisj⟩) hlow rfl

/-- **The best choice of servers leaves no surplus.** -/
theorem IsBestChoice.isSupplied (h : IsBestChoice d p given servers) (hd : IsSupplied d)
    (heven : Even (∑ v, d v)) (hgiven : IsSupplied (served d p given)) :
    IsSupplied (served d p servers) := by
  intro high low hdisj
  have hp := h.served_self_eq_zero
  by_cases hlow : p ∈ low
  · exact h.surplus_served_nonpos hd heven hgiven hdisj hlow
  have hroom : low.card < Fintype.card V := card_lt_univ_of_notMem hlow
  by_cases hhigh : p ∈ high
  · -- The served node asks for nothing, so its pairs are all spare.
    have hparts : Disjoint (high.erase p) (insert p low) := disjoint_insert_right.mpr
      ⟨notMem_erase p high, disjoint_of_subset_left (erase_subset p high) hdisj⟩
    have hrest := h.surplus_served_nonpos hd heven hgiven hparts (mem_insert_self p low)
    rw [surplus_insert_low _ _ hlow, surplus_erase_high _ low hhigh, hp,
      card_erase_of_mem hhigh] at hrest
    omega
  · have hrest := h.surplus_served_nonpos hd heven hgiven
      (disjoint_insert_right.mpr ⟨hhigh, hdisj⟩) (mem_insert_self p low)
    rw [surplus_insert_low _ _ hlow, hp] at hrest
    omega

end DegreeGraph
