import DegreeGraph.Degrees.ErdosGallai
import DegreeGraph.Degrees.Reading
import DegreeGraph.Proofs.Degrees.Sequence

/-!
# The Erdős–Gallai test is exact

`ErdosGallai.passes_iff` says that the scan asks for the textbook inequalities and nothing else,
and `IsSupplied` says the same of sets of nodes in the place of the first entries. Between the two
stands one fact about descending lists: of all sets of `k` nodes the first `k` ask for most,
whatever function of the demands that grows with them is summed.

The inequalities do not depend on how the entries are sorted, so `decides_textbook_condition` can
say what is decided without the scan and without its sort.
-/

namespace DegreeGraph

open Finset

universe u

/-! ## Totals -/

theorem total_eq_sum {α : Type u} [AddMonoid α] (xs : List α) : total xs = xs.sum := by
  induction xs with
  | nil => rfl
  | cons x xs ih => rw [total_cons, List.sum_cons, ih]

theorem total_append (xs ys : List ℤ) : total (xs ++ ys) = total xs + total ys := by
  rw [total_eq_sum, total_eq_sum, total_eq_sum, List.sum_append]

theorem total_concat (xs : List ℤ) (x : ℤ) : total (xs ++ [x]) = total xs + x := by
  rw [total_append, total_cons, total_nil, add_zero]

theorem total_perm {xs ys : List ℤ} (h : xs.Perm ys) : total xs = total ys := by
  rw [total_eq_sum, total_eq_sum, h.sum_eq]

theorem sum_get (ds : List ℤ) (f : ℤ → ℤ) : ∑ i, f (ds.get i) = total (ds.map f) := by
  induction ds with
  | nil => rfl
  | cons d ds ih =>
    rw [List.map_cons, total_cons, ← ih]
    exact Fin.sum_univ_succ fun i ↦ f ((d :: ds).get i)

/-- The nodes before `k`. -/
def firstNodes (n k : ℕ) : Finset (Fin n) := {i | i.val < k}

theorem mem_firstNodes {n k : ℕ} {i : Fin n} : i ∈ firstNodes n k ↔ i.val < k := by
  simp [firstNodes]

theorem card_firstNodes {n k : ℕ} (hk : k ≤ n) : (firstNodes n k).card = k := by
  rw [firstNodes, Fin.card_filter_val_lt, min_eq_right hk]

theorem sum_firstNodes (ds : List ℤ) (f : ℤ → ℤ) (k : ℕ) :
    ∑ i ∈ firstNodes ds.length k, f (ds.get i) = total ((ds.take k).map f) := by
  induction ds generalizing k with
  | nil => simp [firstNodes]
  | cons d ds ih =>
    rw [firstNodes, sum_filter]
    cases k with
    | zero => simp
    | succ k =>
      rw [List.take_succ_cons, List.map_cons, total_cons, ← ih k, firstNodes, sum_filter]
      refine (Fin.sum_univ_succ _).trans ?_
      simp

theorem sum_compl_firstNodes (ds : List ℤ) (f : ℤ → ℤ) (k : ℕ) :
    ∑ i ∈ (firstNodes ds.length k)ᶜ, f (ds.get i) = total ((ds.drop k).map f) := by
  have hall := sum_add_sum_compl (firstNodes ds.length k) fun i ↦ f (ds.get i)
  rw [sum_firstNodes, sum_get] at hall
  conv_rhs at hall => rw [← List.take_append_drop k ds]
  rw [List.map_append, total_append] at hall
  omega

/-! ## The first entries ask for most -/

theorem sum_le_sum_firstNodes {n : ℕ} {g : Fin n → ℤ} (hg : Antitone g) (s : Finset (Fin n)) :
    ∑ i ∈ s, g i ≤ ∑ i ∈ firstNodes n s.card, g i := by
  have hs : s.card ≤ n := by simpa using card_le_univ s
  rcases hs.eq_or_lt with hall | hlt
  · have hfirst : firstNodes n s.card = univ := by simp [firstNodes, hall]
    rw [hfirst]
    exact (congrArg (∑ i ∈ ·, g i) (eq_univ_of_card s (by simpa using hall))).le
  -- The first node left out parts what is gained from what is lost.
  let cut : ℤ := g ⟨s.card, hlt⟩
  have hcard : (s \ firstNodes n s.card).card = (firstNodes n s.card \ s).card :=
    card_sdiff_comm (card_firstNodes hs).symm
  have hgain : ∑ i ∈ s \ firstNodes n s.card, g i ≤ (s \ firstNodes n s.card).card • cut := by
    refine sum_le_card_nsmul _ _ _ fun i hi ↦ hg ?_
    exact not_lt.mp fun hin ↦ (mem_sdiff.mp hi).2 (mem_firstNodes.mpr hin)
  have hloss : (firstNodes n s.card \ s).card • cut ≤ ∑ i ∈ firstNodes n s.card \ s, g i := by
    refine card_nsmul_le_sum _ _ _ fun i hi ↦ hg ?_
    exact (mem_firstNodes.mp (mem_sdiff.mp hi).1).le
  rw [← sum_inter_add_sum_sdiff s (firstNodes n s.card),
    ← sum_inter_add_sum_sdiff (firstNodes n s.card) s, inter_comm s]
  rw [hcard] at hgain
  linarith

/-! ## The textbook inequalities -/

/-- The `k` first entries ask for no more than `k - 1` edges each and what the others can give
them. -/
def HeadIsBounded (ds : List ℤ) (k : ℕ) : Prop :=
  total (ds.take k) ≤ k * (k - 1) + total ((ds.drop k).map (min (k : ℤ)))

theorem headIsBounded_iff {ds : List ℤ} {k : ℕ} : HeadIsBounded ds k
    ↔ ∑ i ∈ firstNodes ds.length k, ds.get i
      ≤ k * (k - 1) + ∑ i ∈ (firstNodes ds.length k)ᶜ, min (k : ℤ) (ds.get i) := by
  rw [sum_firstNodes ds (fun d ↦ d), sum_compl_firstNodes ds (min (k : ℤ)), List.map_id',
    HeadIsBounded]

theorem isSupplied_get_iff {ds : List ℤ} (hdesc : ds.Pairwise (· ≥ ·)) :
    IsSupplied ds.get ↔ ∀ k ≤ ds.length, HeadIsBounded ds k := by
  have hanti : Antitone ds.get := fun i j hij ↦ by
    rcases hij.eq_or_lt with rfl | hlt
    · exact le_rfl
    · exact List.pairwise_iff_get.mp hdesc i j hlt
  rw [isSupplied_iff_min]
  constructor
  · intro h k hk
    have hfirst := h (firstNodes ds.length k)
    rw [card_firstNodes hk] at hfirst
    exact headIsBounded_iff.mpr hfirst
  · intro h high
    have hle := headIsBounded_iff.mp (h high.card (by simpa using card_le_univ high))
    have hmono : Antitone fun i ↦ ds.get i + min (high.card : ℤ) (ds.get i) := fun i j hij ↦
      add_le_add (hanti hij) (min_le_min_left _ (hanti hij))
    have hmost := sum_le_sum_firstNodes hmono high
    simp only [sum_add_distrib] at hmost
    have hfirst := sum_add_sum_compl (firstNodes ds.length high.card) fun i ↦
      min (high.card : ℤ) (ds.get i)
    have hhigh := sum_add_sum_compl high fun i ↦ min (high.card : ℤ) (ds.get i)
    linarith

/-! ## The parted entries -/

theorem perm_descending (ds : List ℤ) : (descending ds).Perm ds := perm_sortedBy _ ds

theorem pairwise_descending (ds : List ℤ) : (descending ds).Pairwise (· ≥ ·) := by
  have hsorted : (descending ds).Pairwise fun a b ↦ decide (b ≤ a) = true :=
    pairwise_sortedBy (by grind) (by grind) ds
  exact hsorted.imp fun h ↦ by simpa using h

namespace ErdosGallai

/-- An ascending list parted at a bound. -/
def partedAt (ds : List ℤ) (bound : ℤ) : Parted :=
  ⟨ds.filter (bound ≤ ·), (ds.filter (bound ≤ ·)).length, total (ds.filter (· < bound))⟩

theorem dropBelow_eq {ds : List ℤ} (hasc : ds.Pairwise (· ≤ ·)) (bound below : ℤ) :
    dropBelow bound ds ds.length below = ⟨ds.filter (bound ≤ ·),
      (ds.filter (bound ≤ ·)).length, below + total (ds.filter (· < bound))⟩ := by
  induction ds generalizing below with
  | nil => simp [dropBelow]
  | cons d ds ih =>
    obtain ⟨hd, hasc⟩ := List.pairwise_cons.mp hasc
    rw [dropBelow]
    split
    · rename_i hlt
      rw [List.length_cons, Nat.add_sub_cancel, ih hasc,
        List.filter_cons_of_neg (by simpa using hlt),
        List.filter_cons_of_pos (by simpa using hlt), total_cons, add_assoc]
    · rename_i hge
      have hall : ∀ x ∈ d :: ds, bound ≤ x := by
        intro x hx
        rcases List.mem_cons.mp hx with rfl | hx
        · exact not_lt.mp hge
        · exact (not_lt.mp hge).trans (hd x hx)
      rw [List.filter_eq_self.mpr fun x hx ↦ by simpa using hall x hx,
        List.filter_eq_nil_iff.mpr fun x hx ↦ by simpa using hall x hx, total_nil, add_zero]

theorem total_filter_lt (ds : List ℤ) {bound higher : ℤ} (h : bound ≤ higher) :
    total (ds.filter (· < bound)) + total ((ds.filter (bound ≤ ·)).filter (· < higher))
      = total (ds.filter (· < higher)) := by
  induction ds with
  | nil => simp
  | cons d ds ih =>
    simp only [List.filter_cons, decide_eq_true_eq]
    split_ifs <;> simp_all <;> omega

theorem raise_partedAt {ds : List ℤ} (hasc : ds.Pairwise (· ≤ ·)) {bound higher : ℤ}
    (h : bound ≤ higher) : (partedAt ds bound).raise higher = partedAt ds higher := by
  have hreach : (ds.filter (bound ≤ ·)).filter (higher ≤ ·) = ds.filter (higher ≤ ·) := by
    rw [List.filter_filter]
    refine List.filter_congr fun x _ ↦ ?_
    grind
  rw [Parted.raise, partedAt, dropBelow_eq (hasc.filter _), hreach, total_filter_lt ds h, partedAt]

/-! ## The right-hand side -/

theorem filter_append_filter {ds : List ℤ} (hdesc : ds.Pairwise (· ≥ ·)) (bound : ℤ) :
    ds.filter (bound ≤ ·) ++ ds.filter (· < bound) = ds := by
  induction ds with
  | nil => rfl
  | cons d ds ih =>
    obtain ⟨hd, hdesc⟩ := List.pairwise_cons.mp hdesc
    by_cases hle : bound ≤ d
    · rw [List.filter_cons_of_pos (by simpa using hle),
        List.filter_cons_of_neg (by simpa using hle),
        List.cons_append, ih hdesc]
    · have hall : ∀ x ∈ d :: ds, x < bound := by
        intro x hx
        rcases List.mem_cons.mp hx with rfl | hx
        · exact not_le.mp hle
        · exact (hd x hx).trans_lt (not_le.mp hle)
      rw [List.filter_eq_nil_iff.mpr fun x hx ↦ by simpa using hall x hx,
        List.filter_eq_self.mpr fun x hx ↦ by simpa using hall x hx, List.nil_append]

theorem total_map_min_of_le {ds : List ℤ} {k : ℤ} (h : ∀ x ∈ ds, k ≤ x) :
    total (ds.map (min k)) = k * ds.length := by
  rw [List.map_congr_left fun x hx ↦ min_eq_left (h x hx), List.map_const', total_eq_sum,
    List.sum_replicate, nsmul_eq_mul, mul_comm]

theorem map_min_of_lt {ds : List ℤ} {k : ℤ} (h : ∀ x ∈ ds, x < k) : ds.map (min k) = ds := by
  rw [List.map_congr_left fun x hx ↦ min_eq_right (h x hx).le, List.map_id']

theorem headBound_eq {ds : List ℤ} (hdesc : ds.Pairwise (· ≥ ·)) (k : ℕ) :
    headBound k (total ds) (total (ds.take k)) (partedAt ds.reverse k)
      = k * (k - 1) + total ((ds.drop k).map (min (k : ℤ))) := by
  have hparts := filter_append_filter hdesc k
  have hlt : ∀ x ∈ ds.filter (· < (k : ℤ)), x < k := fun x hx ↦ by
    simpa using (List.mem_filter.mp hx).2
  rw [headBound]
  simp only [partedAt, List.filter_reverse, List.length_reverse, total_perm (List.reverse_perm _)]
  congr 1
  split
  · rename_i hk
    have hge : ∀ x ∈ (ds.filter ((k : ℤ) ≤ ·)).drop k, k ≤ x := fun x hx ↦ by
      simpa using (List.mem_filter.mp (List.mem_of_mem_drop hx)).2
    conv_rhs => rw [← hparts, List.drop_append_of_le_length hk.le, List.map_append, total_append,
      total_map_min_of_le hge, map_min_of_lt hlt, List.length_drop]
  · rename_i hk
    have hdrop : ∀ x ∈ ds.drop k, x < k := fun x hx ↦ by
      rw [← hparts, List.drop_append, List.drop_eq_nil_of_le (not_lt.mp hk), List.nil_append] at hx
      exact hlt x (List.mem_of_mem_drop hx)
    have hall := total_append (ds.take k) (ds.drop k)
    rw [List.take_append_drop] at hall
    rw [map_min_of_lt hdrop]
    omega

/-! ## The scan -/

/-- What the scan asks when it comes to an entry. -/
theorem head_le_headBound_iff (before : List ℤ) (d : ℤ) (after : List ℤ)
    (hdesc : (before ++ d :: after).Pairwise (· ≥ ·)) :
    total before + d ≤ headBound (before.length + 1) (total (before ++ d :: after))
        (total before + d) (partedAt (before ++ d :: after).reverse (before.length + 1))
      ↔ HeadIsBounded (before ++ d :: after) (before.length + 1) := by
  have htake : (before ++ d :: after).take (before.length + 1) = before ++ [d] := by
    rw [List.append_cons]
    exact List.take_left' (List.length_append ..)
  have hbound := headBound_eq hdesc (before.length + 1)
  rw [htake] at hbound
  rw [HeadIsBounded, htake, ← total_concat, ← hbound, Nat.cast_succ]

theorem scan_iff (before after : List ℤ) (hdesc : (before ++ after).Pairwise (· ≥ ·)) :
    scan (total (before ++ after)) before.length (total before)
        (partedAt (before ++ after).reverse before.length) after = true
      ↔ ∀ k, before.length < k → k < (before ++ after).length →
        HeadIsBounded (before ++ after) k := by
  induction after generalizing before with
  | nil => simp [scan]; omega
  | cons d after ih =>
    cases after with
    | nil => simp [scan]; omega
    | cons e after =>
      have hraise := raise_partedAt (List.pairwise_reverse.mpr hdesc)
        (Int.le_add_one (le_refl (before.length : ℤ)))
      have hlater := ih (before ++ [d]) (by rwa [List.append_cons] at hdesc)
      rw [← List.append_cons, List.length_append, List.length_singleton, total_concat,
        Nat.cast_succ] at hlater
      rw [scan, hraise, Bool.and_eq_true, decide_eq_true_iff,
        head_le_headBound_iff before d _ hdesc, hlater]
      constructor
      · rintro ⟨hhead, hrest⟩ k hk hlt
        rcases (Nat.succ_le_of_lt hk).eq_or_lt with rfl | hk
        · exact hhead
        · exact hrest k hk hlt
      · exact fun h ↦ ⟨h _ (Nat.lt_succ_self _) (by simp), fun k hk ↦ h k (by omega)⟩

theorem inequalities_iff {ds : List ℤ} (hnonneg : ∀ d ∈ ds, 0 ≤ d) :
    inequalities ds = true ↔ ∀ k, 0 < k → k < ds.length → HeadIsBounded (descending ds) k := by
  have hall : ∀ d ∈ (descending ds).reverse, 0 ≤ d := fun d hd ↦
    hnonneg d ((perm_descending ds).mem_iff.mp (List.mem_reverse.mp hd))
  have hparted : partedAt (descending ds).reverse 0
      = ⟨(descending ds).reverse, (descending ds).length, 0⟩ := by
    rw [partedAt, List.filter_eq_self.mpr fun d hd ↦ by simpa using hall d hd,
      List.filter_eq_nil_iff.mpr fun d hd ↦ by simpa using hall d hd, List.length_reverse,
      total_nil]
  have hscan := scan_iff [] (descending ds) (pairwise_descending ds)
  simp only [List.nil_append, List.length_nil, total_nil, Nat.cast_zero, hparted,
    (perm_descending ds).length_eq, total_perm (perm_descending ds)] at hscan
  rw [← hscan, inequalities, (perm_descending ds).length_eq]

/-! ## The two inequalities that are left out -/

theorem headIsBounded_zero {ds : List ℤ} (hnonneg : ∀ d ∈ ds, 0 ≤ d) : HeadIsBounded ds 0 := by
  have hzero : ds.map (min (0 : ℤ)) = List.replicate ds.length 0 := by
    rw [List.map_congr_left fun x hx ↦ min_eq_left (hnonneg x hx), List.map_const']
  simp [HeadIsBounded, hzero, total_eq_sum]

/-- If the first node has as many others as it asks for, so have all. -/
theorem headIsBounded_length {ds : List ℤ} (hdesc : ds.Pairwise (· ≥ ·)) (h : HeadIsBounded ds 1) :
    HeadIsBounded ds ds.length := by
  cases ds with
  | nil => simp [HeadIsBounded]
  | cons d rest =>
    have hd : d ≤ rest.length := by
      have hmin : (rest.map (min (1 : ℤ))).sum ≤ (rest.map (min (1 : ℤ))).length • (1 : ℤ) := by
        refine List.sum_le_card_nsmul _ _ fun x hx ↦ ?_
        obtain ⟨y, -, rfl⟩ := List.mem_map.mp hx
        exact min_le_left _ _
      simp [HeadIsBounded, total_eq_sum] at h hmin
      omega
    have hall : ∀ x ∈ d :: rest, x ≤ (rest.length : ℤ) := by
      intro x hx
      rcases List.mem_cons.mp hx with rfl | hx
      · exact hd
      · exact ((List.pairwise_cons.mp hdesc).1 x hx).trans hd
    have hsum := List.sum_le_card_nsmul _ _ hall
    simpa [HeadIsBounded, total_eq_sum] using hsum

/-! ## The test -/

theorem hasParityAndSign_iff {ds : List ℤ} :
    hasParityAndSign ds = true ↔ (∀ d ∈ ds, 0 ≤ d) ∧ Even (total ds) := by
  simp [hasParityAndSign, Int.even_iff]

theorem headIsBounded_single {d : ℤ} (hd : 0 ≤ d) :
    (∀ k ≤ 1, HeadIsBounded [d] k) ↔ d = 0 := by
  constructor
  · intro h
    have hone := h 1 le_rfl
    simp only [HeadIsBounded, List.take_succ_cons, List.take_zero, total_cons, total_nil,
      List.drop_succ_cons, List.drop_zero, List.map_nil] at hone
    omega
  · rintro rfl k hk
    rcases Nat.le_one_iff_eq_zero_or_eq_one.mp hk with rfl | rfl <;> simp [HeadIsBounded]

/-- For more than one entry the first inequality gives the last. -/
theorem inequalities_iff_all {ds : List ℤ} (hnonneg : ∀ d ∈ ds, 0 ≤ d) (hmany : ds.length ≠ 1) :
    inequalities ds = true ↔ ∀ k ≤ ds.length, HeadIsBounded (descending ds) k := by
  have hperm := perm_descending ds
  rw [inequalities_iff hnonneg]
  refine ⟨fun h k hk ↦ ?_, fun h k _ hk ↦ h k hk.le⟩
  rcases k.eq_zero_or_pos with rfl | hpos
  · exact headIsBounded_zero fun d hd ↦ hnonneg d (hperm.mem_iff.mp hd)
  rcases hk.lt_or_eq with hlt | rfl
  · exact h k hpos hlt
  · have hlast := headIsBounded_length (pairwise_descending ds) (h 1 one_pos (by omega))
    rwa [hperm.length_eq] at hlast

/-- **The scan asks for the textbook inequalities.** -/
theorem passes_iff {ds : List ℤ} : passes ds = true ↔ (∀ d ∈ ds, 0 ≤ d) ∧ Even (total ds)
    ∧ ∀ k ≤ ds.length, HeadIsBounded (descending ds) k := by
  rw [passes.eq_def, Bool.and_eq_true, hasParityAndSign_iff, and_assoc]
  refine and_congr_right fun hnonneg ↦ and_congr_right fun heven ↦ ?_
  split
  · rename_i d
    rw [beq_iff_eq]
    exact (headIsBounded_single (hnonneg d List.mem_cons_self)).symm
  · rename_i hmany
    refine inequalities_iff_all hnonneg fun hone ↦ ?_
    obtain ⟨d, hd⟩ := List.length_eq_one_iff.mp hone
    exact hmany d hd

theorem isGraphical_get_iff {ds : List ℤ} : IsGraphical ds.get
    ↔ (∀ d ∈ ds, 0 ≤ d) ∧ Even (total ds) ∧ ∀ k ≤ ds.length, HeadIsBounded (descending ds) k := by
  have hperm := perm_descending ds
  have hsum : ∑ i, (descending ds).get i = total ds := by
    rw [← total_perm hperm]
    simpa using sum_get (descending ds) id
  rw [← isGraphical_perm hperm, isGraphical_iff, hsum, isSupplied_get_iff (pairwise_descending ds),
    hperm.length_eq]
  refine (and_iff_right_of_imp fun h d hd ↦ ?_).symm
  have hsupplied := (isSupplied_get_iff (pairwise_descending ds)).mpr (hperm.length_eq ▸ h.2)
  obtain ⟨i, rfl⟩ := List.get_of_mem (hperm.mem_iff.mpr hd)
  exact hsupplied.nonneg i

/-- **Exactly the sequences with a graph pass the test.** -/
theorem passes_iff_isGraphical {ds : List ℤ} : passes ds = true ↔ IsGraphical ds.get :=
  passes_iff.trans isGraphical_get_iff.symm

/-- **The test decides whether a list of integers has a graph**, and the list is always read. -/
theorem decides_realizability (degrees : List ℤ) :
    ∃ answer : Bool, (degreesOf (sequenceDatum degrees)).map passes = .ok answer ∧
      (answer = true ↔ ∃ G : SimpleGraph (Fin degrees.length), Realizes G degrees.get) := by
  refine ⟨passes degrees, ?_, passes_iff_isGraphical⟩
  rw [degreesOf_ints, Except.map]

/-! ## The condition as it is written in books -/

theorem descending_eq_mergeSort (ds : List ℤ) : descending ds = ds.mergeSort (· ≥ ·) := by
  have htotal (a b : ℤ) : (decide (b ≤ a) || decide (a ≤ b)) = true := by grind
  have htrans (a b c : ℤ) (hab : decide (b ≤ a) = true) (hbc : decide (c ≤ b) = true) :
      decide (c ≤ a) = true := by grind
  have hantisymm (a b : ℤ) (hab : decide (b ≤ a) = true) (hba : decide (a ≤ b) = true) :
      a = b := by grind
  exact (eq_sortedBy htotal htrans hantisymm (List.mergeSort_perm ds _)
    (List.pairwise_mergeSort htrans htotal ds)).symm

theorem headIsBounded_iff_sum {ds : List ℤ} {k : ℕ} : HeadIsBounded ds k
    ↔ (ds.take k).sum ≤ k * (k - 1) + ((ds.drop k).map (min (k : ℤ))).sum := by
  rw [HeadIsBounded, total_eq_sum, total_eq_sum]

/-- **The scan decides the Erdős–Gallai condition**: no entry is negative, the sum is even, and for
every `k`, the number of all entries included, the `k` largest entries sum to no more than
`k (k - 1)` and what the others give, each at most `k`. -/
theorem decides_textbook_condition (degrees : List ℤ) :
    ∃ answer : Bool, (degreesOf (sequenceDatum degrees)).map passes = .ok answer ∧
      (answer = true ↔ (∀ d ∈ degrees, 0 ≤ d) ∧ Even degrees.sum ∧
        ∀ k, 1 ≤ k → k ≤ degrees.length →
          ((degrees.mergeSort (· ≥ ·)).take k).sum
            ≤ k * (k - 1) + (((degrees.mergeSort (· ≥ ·)).drop k).map (min (k : ℤ))).sum) := by
  refine ⟨passes degrees, ?_, ?_⟩
  · rw [degreesOf_ints, Except.map]
  · simp only [passes_iff, descending_eq_mergeSort, headIsBounded_iff_sum, total_eq_sum]
    refine and_congr_right fun hnonneg ↦ and_congr_right fun _ ↦ ⟨fun h k _ ↦ h k, fun h k hk ↦ ?_⟩
    rcases k.eq_zero_or_pos with rfl | hpos
    · have hsorted : ∀ d ∈ degrees.mergeSort (· ≥ ·), 0 ≤ d := fun d hd ↦
        hnonneg d (List.mem_mergeSort.mp hd)
      exact headIsBounded_iff_sum.mp (headIsBounded_zero hsorted)
    · exact h k hpos hk

end ErdosGallai

end DegreeGraph
