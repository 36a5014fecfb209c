import DegreeGraph.Degrees.HavelHakimi
import DegreeGraph.Proofs.Degrees.ErdosGallai

/-!
# The Havel–Hakimi test is exact

One round of the reduction serves the first node with the next ones, which are the greatest demands
among the others because the list is descending; so a round changes nothing about there being a
graph. Zeros drop out between rounds, and as what is left is positive, no demand ever falls below
zero.
-/

namespace DegreeGraph

open Finset

/-! ## Leaving out nodes without demand -/

theorem isGraphical_replicate_append (k : ℕ) (ds : List ℤ) :
    IsGraphical (List.replicate k 0 ++ ds).get ↔ IsGraphical ds.get := by
  induction k with
  | zero => rfl
  | succ k ih => exact isGraphical_cons_zero.trans ih

theorem isGraphical_filter_pos {ds : List ℤ} (hnonneg : ∀ d ∈ ds, 0 ≤ d) :
    IsGraphical (ds.filter (0 < ·)).get ↔ IsGraphical ds.get := by
  have hzeros : ds.filter (fun d ↦ !decide (0 < d))
      = List.replicate (ds.filter fun d ↦ !decide (0 < d)).length 0 := by
    refine List.eq_replicate_of_mem fun d hd ↦ ?_
    obtain ⟨hmem, hle⟩ := List.mem_filter.mp hd
    have hnn := hnonneg d hmem
    simp only [Bool.not_eq_true', decide_eq_false_iff_not] at hle
    omega
  have hperm := List.perm_append_comm.trans (List.filter_append_perm (fun d ↦ decide (0 < d)) ds)
  rw [hzeros] at hperm
  exact (isGraphical_replicate_append _ _).symm.trans (isGraphical_perm hperm)

namespace HavelHakimi

theorem isGraphical_demands {ds : List ℤ} (hnonneg : ∀ d ∈ ds, 0 ≤ d) :
    IsGraphical (demands ds).get ↔ IsGraphical ds.get :=
  (isGraphical_perm (perm_descending _)).trans (isGraphical_filter_pos hnonneg)

theorem pos_of_mem_demands {ds : List ℤ} {d : ℤ} (h : d ∈ demands ds) : 0 < d := by
  have hmem := (perm_descending _).mem_iff.mp h
  simpa using (List.mem_filter.mp hmem).2

/-! ## One round -/

theorem getElem?_lowerFirst (k : ℕ) (ds : List ℤ) (i : ℕ) :
    (lowerFirst k ds)[i]? = ds[i]?.map fun d ↦ if i < k then d - 1 else d := by
  induction ds generalizing k i with
  | nil => cases k <;> simp [lowerFirst]
  | cons d ds ih =>
    cases k with
    | zero => simp [lowerFirst]
    | succ k =>
      cases i with
      | zero => simp [lowerFirst]
      | succ i => simp [lowerFirst, ih]

theorem get_lowerFirst (k : ℕ) (ds : List ℤ) (i : Fin (lowerFirst k ds).length) (j : Fin ds.length)
    (h : i.val = j.val) :
    (lowerFirst k ds).get i = if j.val < k then ds.get j - 1 else ds.get j := by
  obtain ⟨i, hi⟩ := i
  obtain ⟨j, hj⟩ := j
  obtain rfl : i = j := h
  have hget := List.getElem?_eq_getElem hi
  rw [getElem?_lowerFirst, List.getElem?_eq_getElem hj, Option.map_some] at hget
  exact (Option.some.inj hget).symm

theorem le_of_mem_lowerFirst {k : ℕ} {ds : List ℤ} {bound : ℤ} (h : ∀ d ∈ ds, bound < d) :
    ∀ d ∈ lowerFirst k ds, bound ≤ d := by
  intro d hd
  obtain ⟨i, hi⟩ := List.mem_iff_getElem?.mp hd
  rw [getElem?_lowerFirst] at hi
  obtain ⟨e, he, rfl⟩ := Option.map_eq_some_iff.mp hi
  have hlt := h e (List.mem_of_getElem? he)
  split <;> omega

/-- The nodes that follow the first one and are lowered with it. -/
def nextNodes (n k : ℕ) : Finset (Fin (n + 1)) := (firstNodes n k).map (Fin.succEmb n)

theorem mem_nextNodes {n k : ℕ} {i : Fin (n + 1)} : i ∈ nextNodes n k ↔ i ≠ 0 ∧ i.val ≤ k := by
  rw [nextNodes, mem_map]
  constructor
  · rintro ⟨j, hj, rfl⟩
    exact ⟨Fin.succ_ne_zero j, Nat.succ_le_of_lt (mem_firstNodes.mp hj)⟩
  · rintro ⟨hne, hle⟩
    obtain ⟨j, rfl⟩ := Fin.exists_succ_eq.mpr hne
    exact ⟨j, mem_firstNodes.mpr (Nat.lt_of_succ_le hle), rfl⟩

theorem card_nextNodes {n k : ℕ} (hk : k ≤ n) : (nextNodes n k).card = k := by
  rw [nextNodes, card_map, card_firstNodes hk]

theorem isBestChoice_nextNodes {k : ℕ} {rest : List ℤ} (hk : k ≤ rest.length)
    (hdesc : ((k : ℤ) :: rest).Pairwise (· ≥ ·)) :
    IsBestChoice ((k : ℤ) :: rest).get 0 ∅ (nextNodes rest.length k) := by
  refine ⟨fun hmem ↦ (mem_nextNodes.mp hmem).1 rfl, congrArg Nat.cast (card_nextNodes hk),
    empty_subset _, fun v hv ↦ absurd hv (notMem_empty v), fun v hv w hw hwp ↦ ?_⟩
  have hvk := (mem_nextNodes.mp (mem_sdiff.mp hv).1).2
  have hwk : k < w.val := not_le.mp fun hle ↦ hw (mem_nextNodes.mpr ⟨hwp, hle⟩)
  exact List.pairwise_iff_get.mp hdesc v w (Fin.lt_def.mpr (hvk.trans_lt hwk))

/-- What a round leaves, the removed node standing as a zero. -/
theorem served_nextNodes {k : ℕ} {rest : List ℤ} (hk : k ≤ rest.length) :
    served ((k : ℤ) :: rest).get 0 (nextNodes rest.length k)
      = (0 :: lowerFirst k rest).get ∘ Fin.cast (by simp) := by
  funext i
  have hzero : (0 : Fin (rest.length + 1)) ∉ nextNodes rest.length k := fun hmem ↦
    (mem_nextNodes.mp hmem).1 rfl
  cases i using Fin.cases with
  | zero =>
    rw [served_self hzero, card_nextNodes hk]
    simp
  | succ j =>
    have hcast : (0 :: lowerFirst k rest).get (Fin.cast (by simp) j.succ)
        = (lowerFirst k rest).get (Fin.cast (by simp) j) := rfl
    rw [Function.comp_apply, hcast, get_lowerFirst k rest _ j rfl]
    have hmem : j.succ ∈ nextNodes rest.length k ↔ j.val < k := by
      rw [mem_nextNodes, Fin.val_succ, Nat.succ_le_iff]
      exact and_iff_right (Fin.succ_ne_zero j)
    split
    · rename_i hlt
      exact served_of_mem (hmem.mpr hlt) hzero
    · rename_i hge
      exact served_of_notMem (fun h ↦ hge (hmem.mp h)) (Fin.succ_ne_zero j)

/-- **A round changes nothing about there being a graph.** -/
theorem isGraphical_lowerFirst {k : ℕ} {rest : List ℤ} (hk : k ≤ rest.length)
    (hdesc : ((k : ℤ) :: rest).Pairwise (· ≥ ·)) :
    IsGraphical (lowerFirst k rest).get ↔ IsGraphical ((k : ℤ) :: rest).get := by
  have hlength : ((k : ℤ) :: rest).length = (0 :: lowerFirst k rest).length := by simp
  have hcast := isGraphical_comp (d := (0 :: lowerFirst k rest).get)
    (finCongr hlength).toEmbedding fun v hv ↦ absurd ⟨(finCongr hlength).symm v, by simp⟩ hv
  rw [← (isBestChoice_nextNodes hk hdesc).isGraphical_served_iff, served_nextNodes hk,
    ← isGraphical_cons_zero]
  exact hcast.symm

/-! ## The reduction -/

theorem reduces_iff {ds : List ℤ} (hdesc : ds.Pairwise (· ≥ ·)) (hpos : ∀ d ∈ ds, 0 < d) :
    reduces ds = true ↔ IsGraphical ds.get := by
  induction ds using reduces.induct with
  | case1 =>
    rw [reduces]
    exact iff_of_true rfl ⟨⊥, fun v ↦ v.elim0⟩
  | case2 d rest hshort =>
    rw [reduces, if_pos hshort]
    -- The first node asks for more edges than there are other nodes.
    refine iff_of_false Bool.false_ne_true fun hgraph ↦ ?_
    have hlt := (isGraphical_iff.mp hgraph).2.lt_card 0
    have hd : (d :: rest).get 0 = d := rfl
    rw [hd, Fintype.card_fin, List.length_cons] at hlt
    omega
  | case3 d rest hlong ih =>
    -- No demand falls below zero, so dropping the zeros keeps all that is left.
    obtain ⟨k, rfl⟩ := Int.eq_ofNat_of_zero_le (hpos d List.mem_cons_self).le
    have hrest : ∀ e ∈ lowerFirst k rest, 0 ≤ e :=
      le_of_mem_lowerFirst fun e he ↦ hpos e (List.mem_cons_of_mem _ he)
    rw [reduces, if_neg hlong, ih (pairwise_descending _) fun e ↦ pos_of_mem_demands]
    rw [Int.toNat_natCast] at hlong ⊢
    rw [isGraphical_demands hrest, isGraphical_lowerFirst (not_lt.mp hlong) hdesc]

theorem reduces_demands_iff {ds : List ℤ} (hnonneg : ∀ d ∈ ds, 0 ≤ d) :
    reduces (demands ds) = true ↔ IsGraphical ds.get :=
  (reduces_iff (pairwise_descending _) fun _ ↦ pos_of_mem_demands).trans
    (isGraphical_demands hnonneg)

/-- **Exactly the sequences with a graph pass the test.** -/
theorem passes_iff_isGraphical {ds : List ℤ} : passes ds = true ↔ IsGraphical ds.get := by
  rw [passes, Bool.and_eq_true, ErdosGallai.hasParityAndSign_iff]
  constructor
  · exact fun ⟨⟨hnonneg, _⟩, hreduces⟩ ↦ (reduces_demands_iff hnonneg).mp hreduces
  · intro hgraph
    obtain ⟨hnonneg, heven, -⟩ := ErdosGallai.isGraphical_get_iff.mp hgraph
    exact ⟨⟨hnonneg, heven⟩, (reduces_demands_iff hnonneg).mpr hgraph⟩

theorem passes_eq (degrees : List ℤ) : passes degrees = ErdosGallai.passes degrees :=
  Bool.eq_iff_iff.mpr (passes_iff_isGraphical.trans ErdosGallai.passes_iff_isGraphical.symm)

/-- **The reduction decides whether a list of integers has a graph**, and so it agrees with the
inequalities on every list. -/
theorem decides_as_erdosGallai (degrees : List ℤ) :
    ∃ answer : Bool, (degreesOf (sequenceDatum degrees)).map passes = .ok answer ∧
      (answer = true ↔ ∃ G : SimpleGraph (Fin degrees.length), Realizes G degrees.get) ∧
      (degreesOf (sequenceDatum degrees)).map ErdosGallai.passes = .ok answer := by
  refine ⟨passes degrees, ?_, passes_iff_isGraphical, ?_⟩
  · rw [degreesOf_ints, Except.map]
  · rw [degreesOf_ints, Except.map, passes_eq]

end HavelHakimi

end DegreeGraph
