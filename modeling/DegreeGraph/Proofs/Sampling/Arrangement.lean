import Mathlib
import DegreeGraph.Proofs.Sampling.Search

/-!
# Draws from a shrinking pool

A pool is drawn from again and again, and each draw takes its entry out of the pool by moving the
last entry to its place. After the first draw the places in the pool no longer say anything about
the order in which it was given. All the same nothing is lost: the draws are the entries in another
notation (`bijOn_takenFrom`). Every way to draw gives other entries, and every sequence of different
entries is drawn in one way.

So what is counted over all draws can be counted over all arrangements of the pool, where two
entries can change places (`card_firstIs_eq`). Among the arrangements of the whole pool each entry
that serves is equally often the first of those that do (`card_firstIs_mul_length`).
-/

namespace DegreeGraph

universe u

variable {α : Type u} {pool : List α} {size length : ℕ}

/-! ## What draws take -/

/-- The ways to draw `length` times, at first from `size` entries and then from one less each
time. -/
def drawVectors : ℕ → ℕ → Finset (List ℕ)
  | _, 0 => {[]}
  | size, length + 1 =>
    (Finset.range size ×ˢ drawVectors (size - 1) length).image fun kks ↦ kks.1 :: kks.2

/-- The entries that draws take out of a pool, in order. -/
def takenFrom : List α → List ℕ → List α
  | _, [] => []
  | pool, k :: ks =>
    match pool[k]? with
    | some x => x :: takenFrom (swapRemove pool k) ks
    | none => []

/-- The sequences of different entries of a pool. -/
def arrangements (pool : List α) (length : ℕ) : Set (List α) :=
  {xs | xs.length = length ∧ xs.Nodup ∧ xs ⊆ pool}

theorem cons_mem_drawVectors {k : ℕ} {ks : List ℕ} :
    k :: ks ∈ drawVectors size (length + 1) ↔ k < size ∧ ks ∈ drawVectors (size - 1) length := by
  simp only [drawVectors, Finset.mem_image, Finset.mem_product, Finset.mem_range, Prod.exists,
    List.cons.injEq]
  constructor
  · rintro ⟨k', ks', h, rfl, rfl⟩
    exact h
  · intro h
    exact ⟨k, ks, h, rfl, rfl⟩

theorem exists_cons_of_mem_drawVectors {ks : List ℕ} (h : ks ∈ drawVectors size (length + 1)) :
    ∃ k later, ks = k :: later ∧ k < size ∧ later ∈ drawVectors (size - 1) length := by
  cases ks with
  | nil => simp [drawVectors] at h
  | cons k later => exact ⟨k, later, rfl, cons_mem_drawVectors.mp h⟩

/-- The draw in place `t` is one of the `size - t` entries that are left. -/
theorem mem_drawVectors {ks : List ℕ} : ks ∈ drawVectors size length
    ↔ ks.length = length ∧ ∀ t, ∀ h : t < ks.length, ks.get ⟨t, h⟩ < size - t := by
  induction length generalizing size ks with
  | zero =>
    rw [drawVectors, Finset.mem_singleton, List.length_eq_zero_iff]
    constructor
    · rintro rfl
      exact ⟨rfl, fun t h ↦ absurd h (Nat.not_lt_zero t)⟩
    · exact And.left
  | succ length ih =>
    cases ks with
    | nil => simp [drawVectors]
    | cons k ks =>
      rw [cons_mem_drawVectors, ih]
      constructor
      · rintro ⟨hk, hlength, hks⟩
        refine ⟨congrArg Nat.succ hlength, fun t h ↦ ?_⟩
        cases t with
        | zero => exact hk
        | succ t =>
          have hlt := hks t (Nat.lt_of_succ_lt_succ h)
          rw [List.get_cons_succ]
          omega
      · rintro ⟨hlength, hks⟩
        refine ⟨hks 0 (Nat.succ_pos _), Nat.succ.inj hlength, fun t h ↦ ?_⟩
        have hlt := hks (t + 1) (Nat.succ_lt_succ h)
        rw [List.get_cons_succ] at hlt
        omega

/-- The number of ways to draw is the number of ways to choose in order. -/
theorem card_drawVectors (size length : ℕ) :
    (drawVectors size length).card = size.descFactorial length := by
  induction length generalizing size with
  | zero => rfl
  | succ length ih =>
    have hinj : Function.Injective fun kks : ℕ × List ℕ ↦ kks.1 :: kks.2 := by
      rintro ⟨k, ks⟩ ⟨k', ks'⟩ h
      exact Prod.ext (List.head_eq_of_cons_eq h) (List.tail_eq_of_cons_eq h)
    rw [drawVectors, Finset.card_image_of_injective _ hinj, Finset.card_product, Finset.card_range,
      ih]
    cases size with
    | zero => rw [Nat.zero_mul, Nat.zero_descFactorial_succ]
    | succ size => rw [Nat.add_sub_cancel, Nat.succ_descFactorial_succ]

/-! ## One draw -/

section OneDraw

variable {k : ℕ} {ks : List ℕ}

theorem takenFrom_cons (hk : k < pool.length) (ks : List ℕ) :
    takenFrom pool (k :: ks) = pool.get ⟨k, hk⟩ :: takenFrom (swapRemove pool k) ks := by
  rw [takenFrom, List.getElem?_eq_getElem hk]
  rfl

theorem nodup_swapRemove (hpool : pool.Nodup) (hk : k < pool.length) :
    (swapRemove pool k).Nodup :=
  (List.nodup_cons.mp ((perm_swapRemove hk).nodup_iff.mpr hpool)).2

theorem mem_swapRemove (hpool : pool.Nodup) (hk : k < pool.length) {x : α} :
    x ∈ swapRemove pool k ↔ x ∈ pool ∧ x ≠ pool.get ⟨k, hk⟩ := by
  have hnodup := (perm_swapRemove hk).nodup_iff.mpr hpool
  rw [← (perm_swapRemove hk).mem_iff, List.mem_cons]
  constructor
  · intro hx
    refine ⟨Or.inr hx, ?_⟩
    rintro rfl
    exact (List.nodup_cons.mp hnodup).1 hx
  · rintro ⟨rfl | hx, hne⟩
    · exact absurd rfl hne
    · exact hx

theorem cons_mem_arrangements (hpool : pool.Nodup) (hk : k < pool.length) {xs : List α} :
    pool.get ⟨k, hk⟩ :: xs ∈ arrangements pool (length + 1)
      ↔ xs ∈ arrangements (swapRemove pool k) length := by
  have hsub : xs ⊆ swapRemove pool k ↔ pool.get ⟨k, hk⟩ ∉ xs ∧ xs ⊆ pool := by
    constructor
    · intro h
      refine ⟨fun hmem ↦ ((mem_swapRemove hpool hk).mp (h hmem)).2 rfl, fun x hx ↦ ?_⟩
      exact ((mem_swapRemove hpool hk).mp (h hx)).1
    · rintro ⟨hnew, h⟩ x hx
      refine (mem_swapRemove hpool hk).mpr ⟨h hx, ?_⟩
      rintro rfl
      exact hnew hx
  simp only [arrangements, Set.mem_ofPred_eq, List.length_cons, Nat.add_right_cancel_iff,
    List.nodup_cons, List.cons_subset, hsub, List.get_mem, true_and]
  tauto

end OneDraw

/-! ## Draws and arrangements -/

theorem takenFrom_mem_arrangements (hpool : pool.Nodup) {ks : List ℕ}
    (hks : ks ∈ drawVectors pool.length length) : takenFrom pool ks ∈ arrangements pool length := by
  induction length generalizing pool ks with
  | zero =>
    obtain rfl := Finset.mem_singleton.mp hks
    exact ⟨rfl, List.nodup_nil, List.nil_subset pool⟩
  | succ length ih =>
    obtain ⟨k, later, rfl, hk, hlater⟩ := exists_cons_of_mem_drawVectors hks
    rw [takenFrom_cons hk, cons_mem_arrangements hpool hk]
    apply ih (nodup_swapRemove hpool hk)
    rw [length_swapRemove]
    exact hlater

theorem injOn_takenFrom (hpool : pool.Nodup) :
    Set.InjOn (takenFrom pool) (drawVectors pool.length length : Set (List ℕ)) := by
  induction length generalizing pool with
  | zero =>
    intro ks hks ks' hks' _
    rw [Finset.mem_singleton.mp hks, Finset.mem_singleton.mp hks']
  | succ length ih =>
    intro ks hks ks' hks' heq
    obtain ⟨k, later, rfl, hk, hlater⟩ := exists_cons_of_mem_drawVectors hks
    obtain ⟨k', later', rfl, hk', hlater'⟩ := exists_cons_of_mem_drawVectors hks'
    rw [takenFrom_cons hk, takenFrom_cons hk', List.cons.injEq] at heq
    -- Different places hold different entries, so both drew the same place.
    obtain rfl : k = k' := congrArg Fin.val (hpool.injective_get heq.1)
    rw [← length_swapRemove pool k] at hlater hlater'
    rw [ih (nodup_swapRemove hpool hk) hlater hlater' heq.2]

theorem exists_takenFrom_eq (hpool : pool.Nodup) {xs : List α} (hxs : xs ∈ arrangements pool length) :
    ∃ ks ∈ drawVectors pool.length length, takenFrom pool ks = xs := by
  induction length generalizing pool xs with
  | zero =>
    obtain rfl := List.length_eq_zero_iff.mp hxs.1
    exact ⟨[], Finset.mem_singleton_self [], rfl⟩
  | succ length ih =>
    obtain ⟨x, later, rfl⟩ := List.exists_cons_of_length_eq_add_one hxs.1
    obtain ⟨⟨k, hk⟩, rfl⟩ := List.mem_iff_get.mp (hxs.2.2 List.mem_cons_self)
    have hlater := (cons_mem_arrangements hpool hk).mp hxs
    obtain ⟨ks, hks, rfl⟩ := ih (nodup_swapRemove hpool hk) hlater
    rw [length_swapRemove] at hks
    exact ⟨k :: ks, cons_mem_drawVectors.mpr ⟨hk, hks⟩, takenFrom_cons hk ks⟩

/-- **The draws are the arrangements.** -/
theorem bijOn_takenFrom (hpool : pool.Nodup) (length : ℕ) :
    Set.BijOn (takenFrom pool) (drawVectors pool.length length : Set (List ℕ))
      (arrangements pool length) :=
  ⟨fun _ hks ↦ takenFrom_mem_arrangements hpool hks, injOn_takenFrom hpool,
    fun _ hxs ↦ exists_takenFrom_eq hpool hxs⟩

/-- An arrangement of the whole pool holds each of its entries. -/
theorem perm_of_mem_arrangements {xs : List α} (hxs : xs ∈ arrangements pool pool.length) :
    xs.Perm pool :=
  (hxs.2.1.subperm hxs.2.2).perm_of_length_le hxs.1.ge

/-! ## The first entry that serves -/

section First

variable [DecidableEq α] {serves : α → Bool} {a b : α}

/-- The draws that take `a` before any other entry that serves. -/
def firstIs (pool : List α) (length : ℕ) (serves : α → Bool) (a : α) : Finset (List ℕ) :=
  {ks ∈ drawVectors pool.length length | (takenFrom pool ks).find? serves = some a}

theorem mem_firstIs {ks : List ℕ} : ks ∈ firstIs pool length serves a
    ↔ ks ∈ drawVectors pool.length length ∧ (takenFrom pool ks).find? serves = some a :=
  Finset.mem_filter

/-- Two entries change places in an arrangement. -/
theorem map_swap_mem_arrangements (ha : a ∈ pool) (hb : b ∈ pool) {xs : List α}
    (hxs : xs ∈ arrangements pool length) :
    xs.map (Equiv.swap a b) ∈ arrangements pool length := by
  obtain ⟨hlength, hnodup, hsub⟩ := hxs
  refine ⟨by rw [List.length_map, hlength], hnodup.map (Equiv.swap a b).injective, ?_⟩
  intro y hy
  obtain ⟨x, hx, rfl⟩ := List.mem_map.mp hy
  rw [Equiv.swap_apply_def]
  split_ifs
  · exact hb
  · exact ha
  · exact hsub hx

theorem find?_map_swap (ha : serves a = true) (hb : serves b = true) (xs : List α) :
    (xs.map (Equiv.swap a b)).find? serves = (xs.find? serves).map (Equiv.swap a b) := by
  have hserves : serves ∘ Equiv.swap a b = serves := by
    funext x
    rw [Function.comp_apply, Equiv.swap_apply_def]
    split_ifs with hxa hxb
    · rw [hxa, ha, hb]
    · rw [hxb, ha, hb]
    · rfl
  rw [List.find?_map, hserves]

theorem card_firstIs_le (hpool : pool.Nodup) (ha : a ∈ pool) (hb : b ∈ pool)
    (hserves : serves a = true) (hserves' : serves b = true) (length : ℕ) :
    (firstIs pool length serves a).card ≤ (firstIs pool length serves b).card := by
  have hbij := bijOn_takenFrom hpool length
  -- The draws that take what `ks` takes, with the two entries in each other's place.
  let swapped (ks : List ℕ) : List ℕ :=
    Function.invFunOn (takenFrom pool) (drawVectors pool.length length : Set (List ℕ))
      ((takenFrom pool ks).map (Equiv.swap a b))
  have hexists (ks : List ℕ) (hks : ks ∈ drawVectors pool.length length) :
      ∃ ks' ∈ (drawVectors pool.length length : Set (List ℕ)),
        takenFrom pool ks' = (takenFrom pool ks).map (Equiv.swap a b) :=
    hbij.surjOn (map_swap_mem_arrangements ha hb (hbij.mapsTo hks))
  have htaken (ks : List ℕ) (hks : ks ∈ drawVectors pool.length length) :
      takenFrom pool (swapped ks) = (takenFrom pool ks).map (Equiv.swap a b) :=
    Function.invFunOn_eq (hexists ks hks)
  refine Finset.card_le_card_of_injOn swapped ?_ ?_
  · intro ks hks
    obtain ⟨hvector, hfirst⟩ := mem_firstIs.mp hks
    refine mem_firstIs.mpr ⟨Function.invFunOn_mem (hexists ks hvector), ?_⟩
    rw [htaken ks hvector, find?_map_swap hserves hserves', hfirst, Option.map_some,
      Equiv.swap_apply_left]
  · intro ks hks ks' hks' heq
    have hvector := (mem_firstIs.mp hks).1
    have hvector' := (mem_firstIs.mp hks').1
    apply hbij.injOn hvector hvector'
    apply (Equiv.swap a b).injective.list_map
    rw [← htaken ks hvector, ← htaken ks' hvector', heq]

/-- **Each entry that serves is equally often the first that does.** -/
theorem card_firstIs_eq (hpool : pool.Nodup) (ha : a ∈ pool) (hb : b ∈ pool)
    (hserves : serves a = true) (hserves' : serves b = true) (length : ℕ) :
    (firstIs pool length serves a).card = (firstIs pool length serves b).card :=
  le_antisymm (card_firstIs_le hpool ha hb hserves hserves' length)
    (card_firstIs_le hpool hb ha hserves' hserves length)

theorem card_drawVectors_eq_sum (hpool : pool.Nodup) (ha : a ∈ pool) (hserves : serves a = true) :
    (drawVectors pool.length pool.length).card
      = ∑ b ∈ (pool.filter serves).toFinset, (firstIs pool pool.length serves b).card := by
  have hfirst (ks : List ℕ) (hks : ks ∈ drawVectors pool.length pool.length) :
      ∃ b ∈ (pool.filter serves).toFinset, (takenFrom pool ks).find? serves = some b := by
    have hperm := perm_of_mem_arrangements (takenFrom_mem_arrangements hpool hks)
    have hsome : ((takenFrom pool ks).find? serves).isSome = true :=
      List.find?_isSome.mpr ⟨a, hperm.mem_iff.mpr ha, hserves⟩
    obtain ⟨b, hb⟩ := Option.isSome_iff_exists.mp hsome
    refine ⟨b, List.mem_toFinset.mpr (List.mem_filter.mpr ⟨?_, List.find?_some hb⟩), hb⟩
    exact hperm.mem_iff.mp (List.mem_of_find?_eq_some hb)
  have hcover : drawVectors pool.length pool.length
      = (pool.filter serves).toFinset.biUnion (firstIs pool pool.length serves) := by
    ext ks
    rw [Finset.mem_biUnion]
    constructor
    · intro hks
      obtain ⟨b, hb, hfound⟩ := hfirst ks hks
      exact ⟨b, hb, mem_firstIs.mpr ⟨hks, hfound⟩⟩
    · rintro ⟨b, -, hks⟩
      exact (mem_firstIs.mp hks).1
  conv_lhs => rw [hcover]
  refine Finset.card_biUnion fun b _ c _ hne ↦ Finset.disjoint_left.mpr fun ks hb hc ↦ hne ?_
  exact Option.some.inj ((mem_firstIs.mp hb).2.symm.trans (mem_firstIs.mp hc).2)

/-- The arrangements of the whole pool are shared out evenly among the entries that serve. -/
theorem card_firstIs_mul_length (hpool : pool.Nodup) (ha : a ∈ pool) (hserves : serves a = true) :
    (firstIs pool pool.length serves a).card * (pool.filter serves).length
      = pool.length.factorial := by
  have heven (b : α) (hb : b ∈ (pool.filter serves).toFinset) :
      (firstIs pool pool.length serves b).card = (firstIs pool pool.length serves a).card := by
    obtain ⟨hb, hservesb⟩ := List.mem_filter.mp (List.mem_toFinset.mp hb)
    exact card_firstIs_eq hpool hb ha hservesb hserves pool.length
  calc (firstIs pool pool.length serves a).card * (pool.filter serves).length
      = ∑ b ∈ (pool.filter serves).toFinset, (firstIs pool pool.length serves b).card := by
        rw [Finset.sum_congr rfl heven, Finset.sum_const, smul_eq_mul,
          List.toFinset_card_of_nodup (hpool.filter serves), Nat.mul_comm]
    _ = (drawVectors pool.length pool.length).card :=
        (card_drawVectors_eq_sum hpool ha hserves).symm
    _ = pool.length.factorial := by rw [card_drawVectors, Nat.descFactorial_self]

end First

end DegreeGraph
