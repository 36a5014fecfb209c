import DegreeGraph.Proofs.Sampling.Arrangement
import DegreeGraph.Proofs.Sampling.Support

/-!
# The partner that is taken is drawn evenly

A search stops at the first partner that is accepted, so how many draws it makes hangs on what it
draws. To compare searches, each is given as many draws as the budget and the pool allow, whether it
comes to make them or not. The search then takes the first accepted partner among the entries that
these draws take out of the pool (`searchPool_answers`), and every source of draws is one of these
cases. The rest is counting: no accepted partner is taken for more draws than another one.
-/

namespace DegreeGraph

universe u

variable {σ : Type u} {source : Source σ} {settings : Settings} {verdictOn : ℕ → Verdict}
  {draws size length : ℕ} {pool : List ℕ} {state : σ}

/-! ## The draws that a search may make -/

/-- The number of draws that the budget and the size of the pool leave after a number of draws. -/
def Settings.room (settings : Settings) (draws size : ℕ) : ℕ :=
  match settings.budget with
  | none => size
  | some budget => min (budget - draws).toNat size

theorem room_le (settings : Settings) (draws size : ℕ) : settings.room draws size ≤ size := by
  rw [Settings.room]
  split
  · exact le_rfl
  · exact min_le_right _ _

theorem room_zero_right (settings : Settings) (draws : ℕ) : settings.room draws 0 = 0 :=
  Nat.le_zero.mp (room_le settings draws 0)

theorem room_of_isUsedUp (h : settings.isUsedUp draws = true) (size : ℕ) :
    settings.room draws size = 0 := by
  rw [Settings.isUsedUp, Option.any_eq_true] at h
  obtain ⟨budget, hbudget, hle⟩ := h
  have hle := of_decide_eq_true hle
  simp only [Settings.room, hbudget]
  omega

theorem room_succ (h : ¬settings.isUsedUp draws = true) (size : ℕ) :
    settings.room draws (size + 1) = settings.room (draws + 1) size + 1 := by
  rw [Settings.isUsedUp] at h
  cases hbudget : settings.budget with
  | none => simp only [Settings.room, hbudget]
  | some budget =>
    rw [hbudget, Option.any_some, decide_eq_true_iff, not_le] at h
    simp only [Settings.room, hbudget]
    omega

/-- What a source answers to draws from a pool that loses an entry each time. -/
def answersOf (source : Source σ) : (length size : ℕ) → σ → List ℕ
  | 0, _, _ => []
  | length + 1, size, state =>
    let (k, next) := source.draw state (size - 1)
    k.val :: answersOf source length (size - 1) next

theorem answersOf_succ (source : Source σ) (length size : ℕ) (state : σ) :
    answersOf source (length + 1) (size + 1) state
      = (source.draw state size).1.val
        :: answersOf source length size (source.draw state size).2 := rfl

theorem answersOf_mem_drawVectors (source : Source σ) (h : length ≤ size) (state : σ) :
    answersOf source length size state ∈ drawVectors size length := by
  induction length generalizing size state with
  | zero => exact Finset.mem_singleton_self []
  | succ length ih =>
    refine cons_mem_drawVectors.mpr ⟨?_, ih (Nat.le_sub_one_of_lt h) _⟩
    have hlt := (source.draw state (size - 1)).1.isLt
    omega

/-- A script that holds the draws answers them. -/
theorem answersOf_scriptSource (earlier : List ℤ) {ks : List ℕ}
    (hks : ks ∈ drawVectors size length) :
    answersOf (scriptSource (earlier ++ ks.map (↑))) length size earlier.length = ks := by
  induction length generalizing earlier size ks with
  | zero => exact (Finset.mem_singleton.mp hks).symm
  | succ length ih =>
    obtain ⟨k, later, rfl, hk, hlater⟩ := exists_cons_of_mem_drawVectors hks
    have hrest := ih (earlier ++ [(k : ℤ)]) hlater
    rw [List.append_assoc, List.singleton_append, List.length_append,
      List.length_singleton] at hrest
    rw [List.map_cons, answersOf, draw_scriptSource earlier _ (Nat.le_sub_one_of_lt hk)]
    simp only [hrest]

/-! ## A search along its draws -/

/-- **A search takes the first accepted partner among the entries that its draws take.** -/
theorem searchPool_answers (source : Source σ) (settings : Settings) (verdictOn : ℕ → Verdict)
    (draws : ℕ) (pool : List ℕ) (state : σ) :
    let found := searchPool source settings verdictOn draws pool state
    let taken := takenFrom pool
      (answersOf source (settings.room draws pool.length) pool.length state)
    let accepts (j : ℕ) : Bool := verdictOn j = .accepted
    found.trials.map Trial.partner <+: taken ∧ found.partner = taken.find? accepts := by
  intro found taken accepts
  simp only [found, taken]
  fun_induction searchPool source settings verdictOn draws pool state with
  | case1 =>
    rw [List.length_nil, room_zero_right]
    exact ⟨List.nil_prefix, rfl⟩
  | case2 draws state first others hused =>
    rw [room_of_isUsedUp hused]
    exact ⟨List.nil_prefix, rfl⟩
  | case3 draws state first others hopen k next hdraw partner rest trial haccepted =>
    have haccepts : accepts partner = true := decide_eq_true haccepted
    rw [List.length_cons, room_succ hopen, answersOf_succ, hdraw, takenFrom_cons k.isLt]
    exact ⟨⟨_, rfl⟩, (List.find?_cons_of_pos haccepts).symm⟩
  | case4 draws state first others hopen k next hdraw partner rest trial hrefused later ih =>
    have hrefuses : ¬accepts partner = true := fun haccepts ↦
      hrefused (of_decide_eq_true haccepts)
    have hlength : rest.length = others.length := length_swapRemove (first :: others) k
    obtain ⟨hdrawn, htaken⟩ := ih
    rw [hlength] at hdrawn htaken
    rw [List.length_cons, room_succ hopen, answersOf_succ, hdraw, takenFrom_cons k.isLt]
    exact ⟨(List.prefix_cons_inj partner).mpr hdrawn,
      htaken.trans (List.find?_cons_of_neg hrefuses).symm⟩

/-- **No accepted partner is preferred.** From any place of a run, with any test and any budget: the
draws that a search may make are in one-to-one correspondence to the sequences of different
partners, as long as the budget allows. The search takes the first accepted partner of its sequence,
and searches with other sources of draws are among these. So two accepted partners are taken for
equally many draws; without a budget these are all orders of the partners, divided by the number of
accepted ones. -/
theorem partner_uniform (feasible : List ℤ → Bool) (settings : Settings) (p : Progress) {pivot : ℕ}
    (hpivot : pivot < p.residual.length) :
    let most := p.residual.length - 1
    let allowed := settings.room 0 most
    let pool := partnersOf p.residual.length pivot
    let accepts (j : ℕ) : Bool := judge feasible settings.skipSpent p pivot j = .accepted
    let searchBy (ks : List ℕ) := search feasible settings (scriptSource (ks.map (↑))) p pivot 0
    let taking (a : ℕ) : Finset (List ℕ) :=
      {ks ∈ drawVectors most allowed | (searchBy ks).partner = some a}
    (∀ ks, ks ∈ drawVectors most allowed
      ↔ ks.length = allowed ∧ ∀ t, ∀ h : t < ks.length, ks.get ⟨t, h⟩ < most - t) ∧
    Set.BijOn (takenFrom pool) (drawVectors most allowed : Set (List ℕ))
      {js | js.length = allowed ∧ js.Nodup ∧ js ⊆ pool} ∧
    (∀ ks ∈ drawVectors most allowed,
      (searchBy ks).trials.map Trial.partner <+: takenFrom pool ks
        ∧ (searchBy ks).partner = (takenFrom pool ks).find? accepts) ∧
    (∀ (σ : Type u) (source : Source σ) (state : σ), ∃ ks ∈ drawVectors most allowed,
      (search feasible settings source p pivot state).partner = (searchBy ks).partner) ∧
    (∀ a ∈ pool, ∀ b ∈ pool, accepts a → accepts b → (taking a).card = (taking b).card) ∧
    (settings.budget = none → ∀ a ∈ pool, accepts a →
      (taking a).card * (pool.filter accepts).length = most.factorial) := by
  intro most allowed pool accepts searchBy taking
  have hpool : pool.Nodup := List.nodup_range.filter _
  have hsize : pool.length = most := length_partnersOf hpivot
  have hsearch (ks : List ℕ) (hks : ks ∈ drawVectors most allowed) :
      (searchBy ks).trials.map Trial.partner <+: takenFrom pool ks
        ∧ (searchBy ks).partner = (takenFrom pool ks).find? accepts := by
    have halong := searchPool_answers (scriptSource (ks.map (↑))) settings
      (judge feasible settings.skipSpent p pivot) 0 pool 0
    rw [hsize] at halong
    have hanswers := answersOf_scriptSource [] hks
    rw [List.nil_append, List.length_nil] at hanswers
    simp only [allowed] at hanswers
    rw [hanswers] at halong
    exact halong
  have htaking (a : ℕ) : taking a = firstIs pool allowed accepts a := by
    ext ks
    rw [mem_firstIs, hsize, Finset.mem_filter]
    refine and_congr_right fun hks ↦ ?_
    rw [(hsearch ks hks).2]
  refine ⟨fun ks ↦ mem_drawVectors, ?_, hsearch, ?_, ?_, ?_⟩
  · rw [← hsize]
    exact bijOn_takenFrom hpool allowed
  · intro σ source state
    have hks := answersOf_mem_drawVectors source (room_le settings 0 most) state
    refine ⟨_, hks, ?_⟩
    have halong := searchPool_answers source settings (judge feasible settings.skipSpent p pivot)
      0 pool state
    rw [hsize] at halong
    rw [(hsearch _ hks).2]
    exact halong.2
  · intro a ha b hb haccepts haccepts'
    rw [htaking, htaking]
    exact card_firstIs_eq hpool ha hb haccepts haccepts' allowed
  · intro hbudget a ha haccepts
    have hall : allowed = pool.length := by
      rw [hsize]
      simp only [allowed, Settings.room, hbudget]
    rw [htaking, hall, card_firstIs_mul_length hpool ha haccepts, hsize]

/-- Of the three partners of the first pivot one is refused; the other two are taken for three of
the six orders each. -/
theorem partner_uniform_path :
    let test := Feasibility.erdosGallai.passes
    let p := Progress.start [2, 2, 1, 1]
    2 < p.residual.length ∧
      (({ks ∈ drawVectors 3 3 | (search test { budget := none } (scriptSource (ks.map (↑))) p 2
        0).partner = some 1} : Finset (List ℕ)).card * 2 = 6) := by
  intro test p
  have hpivot : 2 < p.residual.length := by decide
  obtain ⟨-, -, -, -, -, heven⟩ := partner_uniform.{0} test { budget := none } p hpivot
  exact ⟨hpivot, heven rfl 1 (by decide) (by decide)⟩

end DegreeGraph
