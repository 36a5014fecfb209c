import Mathlib
import DegreeGraph.Sampling.Search

/-!
# What a search finds

A search tries the partners of its pool one by one, each at most once, and stops at the first one
that is accepted. As the verdict on a partner does not change while the search goes on, only two
things about it matter to a run: a partner that was drawn is taken exactly if it is accepted,
whatever was drawn before (`partner_eq_some_iff_of_mem`), and a search that may try the whole pool
finds a partner if there is one (`exists_partner_of_mem`).
-/

namespace DegreeGraph

universe u

variable {σ : Type u} {source : Source σ} {settings : Settings} {verdictOn : ℕ → Verdict}
  {draws : ℕ} {pool : List ℕ} {state : σ}

/-! ## The pool -/

theorem perm_set {α : Type u} (xs : List α) (y : α) {k : ℕ} (hk : k < xs.length) :
    (xs.get ⟨k, hk⟩ :: xs.set k y).Perm (y :: xs) := by
  induction xs generalizing k with
  | nil => exact absurd hk (Nat.not_lt_zero k)
  | cons x xs ih =>
    cases k with
    | zero => exact List.Perm.swap y x xs
    | succ k =>
      exact (List.Perm.swap x _ _).trans
        (((ih (Nat.lt_of_succ_lt_succ hk)).cons x).trans (List.Perm.swap y x xs))

theorem perm_swapRemove {α : Type u} {pool : List α} {k : ℕ} (hk : k < pool.length) :
    (pool.get ⟨k, hk⟩ :: swapRemove pool k).Perm pool := by
  obtain ⟨front, last, rfl⟩ : ∃ front last, pool = front ++ [last] :=
    ⟨_, _, (List.dropLast_append_getLast (List.ne_nil_of_length_pos (Nat.zero_lt_of_lt hk))).symm⟩
  have hremoved : swapRemove (front ++ [last]) k = ((front ++ [last]).set k last).dropLast := by
    rw [swapRemove, List.getLast?_concat]
  rw [hremoved]
  by_cases hfront : k < front.length
  · have hget : (front ++ [last]).get ⟨k, hk⟩ = front.get ⟨k, hfront⟩ := List.getElem_append_left _
    rw [hget, List.set_append_left k last hfront, List.dropLast_concat]
    exact (perm_set front last hfront).trans (List.perm_append_singleton last front).symm
  · have hend : k = front.length := by
      rw [List.length_append, List.length_singleton] at hk
      omega
    subst hend
    simpa [List.set_append_right] using (List.perm_append_singleton last front).symm

theorem mem_partnersOf {count pivot partner : ℕ} :
    partner ∈ partnersOf count pivot ↔ partner < count ∧ partner ≠ pivot := by
  simp [partnersOf]

theorem length_partnersOf {count pivot : ℕ} (h : pivot < count) :
    (partnersOf count pivot).length = count - 1 := by
  have hsplit := List.length_eq_length_filter_add (l := List.range count) (· != pivot)
  have hone : (List.range count).filter (fun j ↦ !(j != pivot)) = [pivot] := by
    simp only [bne, Bool.not_not]
    rw [List.filter_beq, List.count_eq_one_of_mem List.nodup_range (List.mem_range.mpr h),
      List.replicate_one]
  rw [hone, List.length_range, List.length_singleton] at hsplit
  rw [partnersOf]
  omega

/-! ## One search -/

theorem isUsedUp_congr {other : Settings} (hbudget : settings.budget = other.budget) (n : ℕ) :
    settings.isUsedUp n = other.isUsedUp n := by
  rw [Settings.isUsedUp, Settings.isUsedUp, hbudget]

section Draw

variable {first : ℕ} {others : List ℕ} {k : Fin (others.length + 1)} {next : σ}
  (hopen : ¬settings.isUsedUp draws = true) (hdraw : source.draw state others.length = (k, next))
include hopen hdraw

/-- A search is over with its first accepted partner. -/
theorem searchPool_of_accepted (haccepted : verdictOn (first :: others)[k] = .accepted) :
    searchPool source settings verdictOn draws (first :: others) state
      = ⟨[⟨others.length + 1, (first :: others)[k], verdictOn (first :: others)[k]⟩],
        swapRemove (first :: others) k, some (first :: others)[k], next⟩ := by
  rw [searchPool, if_neg hopen]
  simp only [hdraw]
  rw [if_pos haccepted]

theorem searchPool_of_refused (hrefused : ¬verdictOn (first :: others)[k] = .accepted) :
    searchPool source settings verdictOn draws (first :: others) state
      = let later := searchPool source settings verdictOn (draws + 1)
          (swapRemove (first :: others) k) next
        { later with trials :=
            ⟨others.length + 1, (first :: others)[k], verdictOn (first :: others)[k]⟩
              :: later.trials } := by
  rw [searchPool, if_neg hopen]
  simp only [hdraw]
  rw [if_neg hrefused]

end Draw

/-- A search that has ended fits a pool and verdicts: its trials and what it left are the pool, it
tells verdicts as they are, and it takes the partner that it tried last if that one is accepted. -/
structure Search.Fits (s : Search σ) (verdictOn : ℕ → Verdict) (pool : List ℕ) : Prop where
  perm : (s.trials.map Trial.partner ++ s.untried).Perm pool
  verdict : ∀ t ∈ s.trials, t.verdict = verdictOn t.partner
  taken : ∀ partner, s.partner = some partner
    ↔ ∃ t ∈ s.trials, t.partner = partner ∧ t.verdict = .accepted

theorem fits_searchPool (source : Source σ) (settings : Settings) (verdictOn : ℕ → Verdict)
    (draws : ℕ) (pool : List ℕ) (state : σ) :
    (searchPool source settings verdictOn draws pool state).Fits verdictOn pool := by
  fun_induction searchPool source settings verdictOn draws pool state with
  | case1 => exact ⟨List.Perm.refl _, by simp, by simp⟩
  | case2 => exact ⟨List.Perm.refl _, by simp, by simp⟩
  | case3 draws state first others _ k next hdraw partner rest trial haccepted =>
    refine ⟨perm_swapRemove k.isLt, fun t ht ↦ ?_, fun j ↦ ⟨fun h ↦ ?_, ?_⟩⟩
    · rw [List.mem_singleton.mp ht]
    · exact ⟨trial, List.mem_singleton_self trial, Option.some.inj h, haccepted⟩
    · rintro ⟨t, ht, rfl, -⟩
      rw [List.mem_singleton.mp ht]
  | case4 draws state first others _ k next hdraw partner rest trial hrefused later ih =>
    refine ⟨(ih.perm.cons _).trans (perm_swapRemove k.isLt), fun t ht ↦ ?_, fun j ↦ ?_⟩
    · rcases List.mem_cons.mp ht with rfl | ht
      · rfl
      · exact ih.verdict t ht
    · refine (ih.taken j).trans ⟨fun ⟨t, ht, h⟩ ↦ ⟨t, List.mem_cons_of_mem trial ht, h⟩, ?_⟩
      rintro ⟨t, ht, h⟩
      rcases List.mem_cons.mp ht with rfl | ht
      · exact absurd h.2 hrefused
      · exact ⟨t, ht, h⟩

namespace Search.Fits

variable {s : Search σ}

theorem mem_of_trial (h : s.Fits verdictOn pool) {t : Trial} (ht : t ∈ s.trials) :
    t.partner ∈ pool :=
  h.perm.mem_iff.mp (List.mem_append_left _ (List.mem_map_of_mem ht))

theorem partner_mem (h : s.Fits verdictOn pool) {partner : ℕ} (hp : s.partner = some partner) :
    partner ∈ pool := by
  obtain ⟨t, ht, rfl, -⟩ := (h.taken partner).mp hp
  exact h.mem_of_trial ht

theorem accepted (h : s.Fits verdictOn pool) {partner : ℕ} (hp : s.partner = some partner) :
    verdictOn partner = .accepted := by
  obtain ⟨t, ht, rfl, haccepted⟩ := (h.taken partner).mp hp
  rw [← h.verdict t ht, haccepted]

/-- A partner that was drawn is taken exactly if it is accepted. -/
theorem partner_eq_some_iff_of_mem (h : s.Fits verdictOn pool) {t : Trial} (ht : t ∈ s.trials) :
    s.partner = some t.partner ↔ verdictOn t.partner = .accepted := by
  refine ⟨h.accepted, fun haccepted ↦ (h.taken _).mpr ⟨t, ht, rfl, ?_⟩⟩
  rw [h.verdict t ht, haccepted]

theorem length_trials_le (h : s.Fits verdictOn pool) : s.trials.length ≤ pool.length := by
  have hlength := h.perm.length_eq
  rw [List.length_append, List.length_map] at hlength
  omega

end Search.Fits

/-! ## A search that may try its whole pool -/

/-- The budget, if there is one, has room for a number of draws. -/
def Settings.Allows (settings : Settings) (draws : ℤ) : Prop :=
  ∀ budget, settings.budget = some budget → draws ≤ budget

theorem Settings.Allows.not_isUsedUp {made more : ℕ} (h : settings.Allows (made + more : ℕ))
    (hmore : 0 < more) : settings.isUsedUp made = false := by
  rw [Settings.isUsedUp]
  cases hbudget : settings.budget with
  | none => rfl
  | some budget =>
    have hle := h budget hbudget
    simp only [Option.any_some, decide_eq_false_iff_not]
    omega

theorem untried_eq_nil (hallows : settings.Allows (draws + pool.length : ℕ))
    (hnone : (searchPool source settings verdictOn draws pool state).partner = none) :
    (searchPool source settings verdictOn draws pool state).untried = [] := by
  fun_induction searchPool source settings verdictOn draws pool state with
  | case1 => rfl
  | case2 draws state first others hused =>
    rw [hallows.not_isUsedUp (Nat.succ_pos _)] at hused
    exact absurd hused Bool.false_ne_true
  | case3 => exact absurd hnone (Option.some_ne_none _)
  | case4 draws state first others _ k next hdraw partner rest trial hrefused later ih =>
    refine ih ?_ hnone
    rw [length_swapRemove, List.length_cons]
    rw [List.length_cons] at hallows
    convert hallows using 1
    omega

/-- A search finds a partner if its pool has one and it may try all of it. -/
theorem exists_partner_of_mem (source : Source σ) (state : σ)
    (hallows : settings.Allows (draws + pool.length : ℕ)) {partner : ℕ} (hp : partner ∈ pool)
    (haccepted : verdictOn partner = .accepted) :
    ∃ found, (searchPool source settings verdictOn draws pool state).partner = some found := by
  refine Option.ne_none_iff_exists'.mp fun hnone ↦ ?_
  have hfits := fits_searchPool source settings verdictOn draws pool state
  have hperm := hfits.perm
  rw [untried_eq_nil hallows hnone, List.append_nil] at hperm
  obtain ⟨t, ht, rfl⟩ := List.mem_map.mp (hperm.mem_iff.mpr hp)
  rw [(hfits.partner_eq_some_iff_of_mem ht).mpr haccepted] at hnone
  exact Option.some_ne_none _ hnone

/-! ## The verdict -/

theorem judge_eq_accepted_iff {feasible : List ℤ → Bool} {skipSpent : Bool} {p : Progress}
    {pivot partner : ℕ} : judge feasible skipSpent p pivot partner = .accepted
      ↔ edgeOf pivot partner ∉ p.edges ∧ ¬(skipSpent = true ∧ p.residual.getD partner 0 = 0)
        ∧ feasible (p.lowered pivot partner) = true := by
  rw [judge]
  split_ifs <;> simp_all

end DegreeGraph
