import DegreeGraph.Proofs.PowerLaw.Sample
import DegreeGraph.Proofs.Stepwise

/-!
# The trials of a sample

A trial draws a batch, cuts every variate to a degree and moves one place by one if the sum is odd.
Trials follow one another through the state of the source alone, so they are numbered from zero
along the iterates of one step (`PowerLaw.stateOn`), and a sample is the first of them that is
graphical (`PowerLaw.Asks.answer_cases`).

`PowerLaw.sample_meets_request` says what that comes to when the figures are integers: what may be
answered, how a trial differs from what was drawn, and when there is no answer. A variate that is no
number is cut to a degree far below zero. It needs no exception anywhere: a step by one leaves it
negative, so the trial that holds it is refused.
-/

namespace DegreeGraph

open DegreeGraph.Number

universe u

variable {σ : Type u} {source : Variates σ} {state : σ} {drawn tested degrees : List ℤ}

/-! ## Bounds -/

theorem floorBetween_mem {low high : ℤ} (h : low ≤ high) (x : Float) :
    low ≤ floorBetween low high x ∧ floorBetween low high x ≤ high := by
  rw [floorBetween]
  split
  · exact ⟨le_rfl, h⟩
  · split
    · exact ⟨le_rfl, h⟩
    · exact ⟨h, le_rfl⟩
  · exact ⟨le_max_left _ _, max_le h (min_le_left _ _)⟩

theorem related_greater_int (a b : ℤ) :
    Datum.related .greater (.int a) (.int b) = .ok (decide (b < a)) := by
  have hadmits : Relation.greater.admits (compare a b) = decide (b < a) := by
    rw [Relation.admits, Bool.eq_iff_iff, decide_eq_true_iff, beq_iff_eq, compare_gt_iff_gt]
  rw [Datum.related_int, hadmits]

/-! ## A step at one place -/

/-- Degrees with an even sum that come from others by a step of at most one at one place. -/
structure IsEvened (drawn tested : List ℤ) : Prop where
  even_sum : Even tested.sum
  /-- In front of the place and behind it nothing differs. -/
  exists_place : ∃ front back d change, |change| ≤ 1 ∧ drawn = front ++ d :: back ∧
    tested = front ++ (d + change) :: back

theorem isEvened_self (hne : drawn ≠ []) (h : Even drawn.sum) : IsEvened drawn drawn where
  even_sum := h
  exists_place := by
    obtain ⟨d, back, rfl⟩ := List.exists_cons_of_ne_nil hne
    exact ⟨[], back, d, 0, by decide, rfl, by rw [add_zero, List.nil_append]⟩

namespace PowerLaw

variable {p : PowerLaw} {n least cap most : ℤ} {shape : Float} {last attempt tries place : ℕ}
  {d : ℤ} {x : Float}

/-- The step away from a degree: up below the bound, and down from there on. -/
def step (bound d : ℤ) : ℤ := if d < bound then d + 1 else d - 1

theorem exists_mend (bound : ℤ) (h : place < degrees.length) :
    ∃ front back d, degrees = front ++ d :: back ∧
      mend bound degrees place = front ++ step bound d :: back := by
  obtain ⟨front, d, back, hsplit, -, hmend⟩ := List.exists_of_modify (step bound) h
  exact ⟨front, back, d, hsplit, hmend⟩

theorem isEvened_mend (bound : ℤ) (h : place < degrees.length) (hodd : ¬Even degrees.sum) :
    IsEvened degrees (mend bound degrees place) := by
  obtain ⟨front, back, d, hsplit, hmend⟩ := exists_mend bound h
  obtain ⟨change, hchange, hodd', hstep⟩ :
      ∃ change : ℤ, |change| ≤ 1 ∧ Odd change ∧ step bound d = d + change := by
    rw [step]
    split
    · exact ⟨1, by decide, by decide, rfl⟩
    · exact ⟨-1, by decide, by decide, rfl⟩
  rw [hstep] at hmend
  have hsum : (mend bound degrees place).sum = degrees.sum + change := by
    rw [hmend, hsplit, List.sum_append, List.sum_append, List.sum_cons, List.sum_cons]
    ring
  refine ⟨?_, front, back, d, change, hchange, hsplit, hmend⟩
  rw [hsum]
  exact (Int.not_even_iff_odd.mp hodd).add_odd hodd'

/-! ## Candidates -/

theorem isEvened_candidate (p : PowerLaw) (source : Variates σ) (shape : Float) (last : ℕ)
    (state : σ) : IsEvened (p.drawnFrom source shape last state)
      (p.candidate source shape last state).degrees := by
  have hlength := length_drawnFrom p source shape last state
  rcases candidate_cases p source shape last state with
    ⟨heven, hsame⟩ | ⟨hodd, place, hplace, hmend⟩
  · rw [hsame]
    exact isEvened_self (List.ne_nil_of_length_pos (hlength ▸ Nat.succ_pos last)) heven
  · rw [hmend]
    exact isEvened_mend p.raisedBelow (hlength ▸ hplace) hodd

/-! ## Trials in a row -/

/-- The state of the source before a trial; the first trial has the number zero. -/
def stateOn (p : PowerLaw) (source : Variates σ) (shape : Float) (last : ℕ) (state : σ)
    (trial : ℕ) : σ :=
  (fun s ↦ (p.candidate source shape last s).state)^[trial] state

/-- What is tested on a trial. -/
def testedOn (p : PowerLaw) (source : Variates σ) (shape : Float) (last : ℕ) (state : σ)
    (trial : ℕ) : List ℤ :=
  (p.candidate source shape last (p.stateOn source shape last state trial)).degrees

theorem testedOn_zero :
    p.testedOn source shape last state 0 = (p.candidate source shape last state).degrees := rfl

/-- The trials behind the first one are the trials from the state that it leaves. -/
theorem testedOn_succ (trial : ℕ) : p.testedOn source shape last state (trial + 1)
    = p.testedOn source shape last (p.candidate source shape last state).state trial := rfl

/-- A search is answered by a trial that passes the test if none before it does. -/
theorem answer_draw_of_passes {y : Float} (hexponent : inDouble p.exponent = .ok y) {trial : ℕ}
    (htrial : trial < tries)
    (hpasses : ErdosGallai.passes (p.testedOn source shape last state trial) = true)
    (hbefore : ∀ earlier < trial,
      ErdosGallai.passes (p.testedOn source shape last state earlier) = false) :
    (p.draw source shape last attempt tries state).answer
      = .ok (p.testedOn source shape last state trial) := by
  induction trial generalizing attempt tries state with
  | zero =>
    obtain ⟨tries, rfl⟩ := Nat.exists_eq_succ_of_ne_zero htrial.ne'
    rw [testedOn_zero] at hpasses ⊢
    rw [draw, if_pos hpasses, accepted, hexponent]
  | succ trial ih =>
    obtain ⟨tries, rfl⟩ := Nat.exists_eq_succ_of_ne_zero (Nat.zero_lt_of_lt htrial).ne'
    have hfirst := hbefore 0 (Nat.succ_pos trial)
    rw [testedOn_zero] at hfirst
    rw [testedOn_succ] at hpasses ⊢
    rw [draw, if_neg (Bool.eq_false_iff.mp hfirst)]
    exact ih (Nat.lt_of_succ_lt_succ htrial) hpasses fun earlier hearlier ↦
      hbefore (earlier + 1) (Nat.succ_lt_succ hearlier)

/-- A search without a trial that passes the test fails. -/
theorem answer_draw_of_not_passes
    (h : ∀ trial < tries, ErdosGallai.passes (p.testedOn source shape last state trial) = false) :
    (p.draw source shape last attempt tries state).answer
      = .error (.noSample p.attempts p.count p.exponent) := by
  induction tries generalizing attempt state with
  | zero => rfl
  | succ tries ih =>
    have hfirst := h 0 (Nat.succ_pos tries)
    rw [testedOn_zero] at hfirst
    rw [draw, if_neg (Bool.eq_false_iff.mp hfirst)]
    exact ih fun trial htrial ↦ h (trial + 1) (Nat.succ_lt_succ htrial)

/-! ## Requests in integers -/

/-- A sample is asked for with integers that pass the checks: `n` nodes, one at least, with degrees
from `least` to `cap`, and `most` trials of some shape. The exponent has to fit double precision. -/
structure Asks (p : PowerLaw) (n least cap most : ℤ) (shape : Float) : Prop where
  check : p.check = .ok ()
  count : p.count = .int n
  one_le : 1 ≤ n
  least : p.least = .int least
  greatest : p.greatest = .null ∧ cap = n - 1 ∨
    ∃ greatest, p.greatest = .int greatest ∧ cap = min greatest (n - 1)
  attempts : p.attempts = .int most
  exponent : ∃ y, inDouble p.exponent = .ok y
  shape : p.shape = .ok shape

namespace Asks

variable (h : p.Asks n least cap most shape)

include h

theorem isEmpty_eq_false : p.isEmpty = false := by
  rw [Bool.eq_false_iff, ne_eq, isEmpty_iff h.count]
  have := h.one_le
  omega

theorem cap_eq : p.cap = .ok (.int cap) := by
  have hlast : p.last = .int (n - 1) := by rw [last, h.count]; rfl
  rcases h.greatest with ⟨hnull, rfl⟩ | ⟨greatest, hgreatest, rfl⟩
  · rw [PowerLaw.cap, hnull, hlast]
  · rw [PowerLaw.cap, hgreatest, hlast]
    simp only [Datum.related_less_int, bind, Except.bind, pure, Except.pure, decide_eq_true_iff,
      min_def]
    split <;> split <;> first | rfl | omega

theorem bound_eq : p.bound = .int cap := by
  rw [bound, h.cap_eq]
  rfl

/-- The checks put the least degree between zero and the cap. -/
theorem least_mem : 0 ≤ least ∧ least ≤ cap := by
  have hcheck := h.check
  rw [PowerLaw.check] at hcheck
  obtain ⟨negative, -, hcheck⟩ := Stepwise.exists_of_bind_eq_ok hcheck
  cases negative with
  | true => cases hcheck
  | false =>
    obtain ⟨flat, -, hcheck⟩ := Stepwise.exists_of_bind_eq_ok hcheck
    cases flat with
    | true => cases hcheck
    | false =>
      simp only [bind, Except.bind, h.isEmpty_eq_false, h.cap_eq, h.least,
        Datum.related_less_int, related_greater_int, Bool.not_false, if_true, Bool.or_eq_true,
        decide_eq_true_iff] at hcheck
      by_contra hmem
      have hout : least < 0 ∨ cap < least := by omega
      rw [if_pos hout] at hcheck
      cases hcheck

/-- A variate that is a number is scaled, cut to a whole degree and held between the bounds. -/
theorem degree_eq (hx : x.isNaN = false) :
    p.degree x = floorBetween least cap ((x + 1.0) * p.scale) := by
  have hleast : p.leastDegree = least := by rw [leastDegree, h.least]; rfl
  have hgreatest : p.greatestDegree = cap := by rw [greatestDegree, h.bound_eq]; rfl
  rw [degree, if_neg (Bool.eq_false_iff.mp hx), hleast, hgreatest]

/-- What is drawn lies between the bounds, but for what stands for no number. -/
theorem of_mem_drawnFrom {last : ℕ} (hd : d ∈ p.drawnFrom source shape last state) :
    d = noDegree ∨ least ≤ d ∧ d ≤ cap := by
  obtain ⟨x, -, rfl⟩ := List.mem_map.mp hd
  cases hx : x.isNaN with
  | true => exact .inl (if_pos hx)
  | false =>
    rw [h.degree_eq hx]
    exact .inr (floorBetween_mem h.least_mem.2 _)

end Asks

/-! ## What may be answered -/

/-- A graphical sequence for `n` nodes with entries from zero to a cap. No entry is below the least
degree, except that one of them may be below it by one if the least degree is the cap. -/
structure IsAnswer (n least cap : ℤ) (degrees : List ℤ) : Prop where
  length_eq : (degrees.length : ℤ) = n
  isGraphical : IsGraphical degrees.get
  nonneg_le_cap : ∀ d ∈ degrees, 0 ≤ d ∧ d ≤ cap
  least_le : ∀ d ∈ degrees, least ≤ d ∨ least = cap ∧ d = cap - 1
  count_le_one : least = cap → degrees.count (cap - 1) ≤ 1

/-- The least number of 64 bits is far below every degree, and by one more or less it still is. -/
theorem noDegree_lt : noDegree < -2 := by decide

theorem Asks.step_cases (h : p.Asks n least cap most shape)
    (hd : d = noDegree ∨ least ≤ d ∧ d ≤ cap) :
    step p.raisedBelow d < 0 ∨
      step p.raisedBelow d ≤ cap ∧
        (least ≤ step p.raisedBelow d ∨ least = cap ∧ step p.raisedBelow d = cap - 1) := by
  have hbound : p.raisedBelow = cap := by rw [raisedBelow, h.bound_eq]; rfl
  have hbounds := h.least_mem
  have hlow := noDegree_lt
  rw [hbound, step]
  split <;> omega

theorem Asks.of_mem_candidate (h : p.Asks n least cap most shape)
    (hd : d ∈ (p.candidate source shape last state).degrees) :
    d < 0 ∨ d ≤ cap ∧ (least ≤ d ∨ least = cap ∧ d = cap - 1) := by
  have hdrawn : ∀ e ∈ p.drawnFrom source shape last state,
      e < 0 ∨ e ≤ cap ∧ (least ≤ e ∨ least = cap ∧ e = cap - 1) := by
    intro e he
    have hlow := noDegree_lt
    rcases h.of_mem_drawnFrom he with rfl | ⟨hleast, hcap⟩
    · exact .inl (by omega)
    · exact .inr ⟨hcap, .inl hleast⟩
  rcases candidate_cases p source shape last state with ⟨-, hsame⟩ | ⟨-, place, hplace, hmend⟩
  · exact hdrawn d (hsame ▸ hd)
  · rw [← length_drawnFrom p source shape last state] at hplace
    obtain ⟨front, back, e, hsplit, hmended⟩ := exists_mend p.raisedBelow hplace
    rw [hmend, hmended, List.mem_append, List.mem_cons] at hd
    rw [hsplit] at hdrawn
    rcases hd with hfront | rfl | hback
    · exact hdrawn d (List.mem_append_left _ hfront)
    · exact h.step_cases (h.of_mem_drawnFrom (hsplit ▸ List.mem_append_right _ List.mem_cons_self))
    · exact hdrawn d (List.mem_append_right _ (List.mem_cons_of_mem _ hback))

/-- Only the place that was mended can be one below the cap if all that can be drawn is the cap. -/
theorem Asks.count_candidate_le_one (h : p.Asks n least cap most shape) (hcap : least = cap) :
    (p.candidate source shape last state).degrees.count (cap - 1) ≤ 1 := by
  obtain ⟨front, back, d, change, -, hdrawn, htested⟩ :=
    (isEvened_candidate p source shape last state).exists_place
  have hnone : cap - 1 ∉ p.drawnFrom source shape last state := by
    intro hmem
    have hbounds := h.least_mem
    have hlow := noDegree_lt
    rcases h.of_mem_drawnFrom hmem with heq | hbetween <;> omega
  rw [hdrawn, List.mem_append, List.mem_cons, not_or, not_or] at hnone
  rw [htested, List.count_append, List.count_cons, List.count_eq_zero_of_not_mem hnone.1,
    List.count_eq_zero_of_not_mem hnone.2.2]
  split <;> decide

/-- A graphical candidate may be answered. -/
theorem Asks.isAnswer_candidate (h : p.Asks n least cap most shape)
    (hgraph : IsGraphical (p.candidate source shape (n - 1).toNat state).degrees.get) :
    IsAnswer n least cap (p.candidate source shape (n - 1).toNat state).degrees where
  length_eq := by
    rw [length_candidate]
    have := h.one_le
    omega
  isGraphical := hgraph
  nonneg_le_cap d hd := by
    have hnonneg := nonneg_of_isGraphical hgraph hd
    rcases h.of_mem_candidate hd with hneg | ⟨hcap, -⟩
    · omega
    · exact ⟨hnonneg, hcap⟩
  least_le d hd := by
    have hnonneg := nonneg_of_isGraphical hgraph hd
    exact ((h.of_mem_candidate hd).resolve_left (by omega)).2
  count_le_one := h.count_candidate_le_one

/-! ## Samples -/

/-- A request that passes the checks comes down to the search. -/
theorem Asks.answer_sample (h : p.Asks n least cap most shape) :
    (p.sample source state).answer
      = (p.draw source shape (n - 1).toNat 1 most.toNat state).answer := by
  have htries : p.tries = .ok most.toNat := by rw [tries, h.attempts]; rfl
  rw [sample, sampleStarting, h.check]
  simp only [h.isEmpty_eq_false, htries, Bool.false_eq_true, if_false]
  rw [drawSome.eq_def, h.shape, lastNode?_eq h.count]
  cases most.toNat <;> rfl

/-- The first trial that is graphical, among so many, or none at all. -/
theorem Asks.answer_cases (h : p.Asks n least cap most shape) (source : Variates σ) (state : σ) :
    (∃ trial < most.toNat,
      IsGraphical (p.testedOn source shape (n - 1).toNat state trial).get ∧
      (p.sample source state).answer = .ok (p.testedOn source shape (n - 1).toNat state trial)) ∨
    ((∀ trial < most.toNat,
      ¬IsGraphical (p.testedOn source shape (n - 1).toNat state trial).get) ∧
      (p.sample source state).answer = .error (.noSample p.attempts p.count p.exponent)) := by
  obtain ⟨y, hexponent⟩ := h.exponent
  let found : ℕ → Prop := fun trial ↦ trial < most.toNat ∧
    ErdosGallai.passes (p.testedOn source shape (n - 1).toNat state trial) = true
  by_cases hfound : ∃ trial, found trial
  · classical
    obtain ⟨hlt, hpasses⟩ := Nat.find_spec hfound
    refine .inl ⟨Nat.find hfound, hlt, ErdosGallai.passes_iff_isGraphical.mp hpasses, ?_⟩
    rw [h.answer_sample]
    refine answer_draw_of_passes hexponent hlt hpasses fun earlier hearlier ↦ ?_
    have hnot := Nat.find_min hfound hearlier
    exact Bool.eq_false_iff.mpr fun hpass ↦ hnot ⟨hearlier.trans hlt, hpass⟩
  · refine .inr ⟨fun trial htrial hgraph ↦
      hfound ⟨trial, htrial, ErdosGallai.passes_iff_isGraphical.mpr hgraph⟩, ?_⟩
    rw [h.answer_sample]
    exact answer_draw_of_not_passes fun trial htrial ↦
      Bool.eq_false_iff.mpr fun hpass ↦ hfound ⟨trial, htrial, hpass⟩

/-- **What a sample of a power law comes to.** Whatever the source yields, an answer is a graphical
sequence within the bounds that were asked for. Every trial tests degrees with an even sum that are
what was drawn and cut to the bounds, but for a step at one place. A sample fails for want of a
graphical candidate exactly if none of the trials that are allowed is graphical; if one is, there is
an answer. -/
theorem sample_meets_request (h : p.Asks n least cap most shape) (source : Variates σ) (state : σ) :
    (∀ degrees, (p.sample source state).answer = .ok degrees → IsAnswer n least cap degrees) ∧
    (∀ x : Float, x.isNaN = false →
      p.degree x = floorBetween least cap ((x + 1.0) * p.scale)) ∧
    (∀ trial, IsEvened
      (p.drawnFrom source shape (n - 1).toNat (p.stateOn source shape (n - 1).toNat state trial))
      (p.testedOn source shape (n - 1).toNat state trial)) ∧
    ((p.sample source state).answer = .error (.noSample (.int most) (.int n) p.exponent) ↔
      ∀ trial < most.toNat, ¬IsGraphical (p.testedOn source shape (n - 1).toNat state trial).get) ∧
    ((∃ trial < most.toNat,
        IsGraphical (p.testedOn source shape (n - 1).toNat state trial).get) →
      ∃ degrees, (p.sample source state).answer = .ok degrees) := by
  have hevened := fun trial ↦ isEvened_candidate p source shape (n - 1).toNat
    (p.stateOn source shape (n - 1).toNat state trial)
  rw [← h.attempts, ← h.count]
  rcases h.answer_cases source state with ⟨trial, hlt, hgraph, hanswer⟩ | ⟨hnone, hanswer⟩
  · refine ⟨fun degrees hok ↦ ?_, fun x ↦ h.degree_eq, hevened,
      ⟨fun herror ↦ ?_, fun hnone ↦ ?_⟩, fun _ ↦ ⟨_, hanswer⟩⟩
    · obtain rfl : p.testedOn source shape (n - 1).toNat state trial = degrees :=
        Except.ok.inj (hanswer.symm.trans hok)
      exact h.isAnswer_candidate hgraph
    · cases hanswer.symm.trans herror
    · exact absurd hgraph (hnone trial hlt)
  · refine ⟨fun degrees hok ↦ ?_, fun x ↦ h.degree_eq, hevened, iff_of_true hanswer hnone, ?_⟩
    · cases hanswer.symm.trans hok
    · rintro ⟨trial, hlt, hgraph⟩
      exact absurd hgraph (hnone trial hlt)

/-- Three nodes, and a batch that is cut to degrees with an odd sum. -/
def threeNodes : PowerLaw := { count := .int 3 }

/-- The batch of `1.0`, `0.0` and `1.25`, and then the second place. -/
def oddBatch : Variates ScriptState :=
  scriptVariates { batches := [[1.0, 0.0, 1.25]], places := [1] }

theorem sample_meets_request_threeNodes :
    (threeNodes.sample oddBatch {}).answer = .ok [2, 2, 2] ∧ IsAnswer 3 1 2 [2, 2, 2] := by
  have hasks : threeNodes.Asks 3 1 2 1000 (2.5 - 1.0) :=
    { check := rfl, count := rfl, one_le := by decide, least := rfl, greatest := .inl ⟨rfl, rfl⟩,
      attempts := rfl, exponent := ⟨2.5, rfl⟩, shape := rfl }
  have hanswer : (threeNodes.sample oddBatch {}).answer = .ok [2, 2, 2] := rfl
  exact ⟨hanswer, (sample_meets_request hasks oddBatch {}).1 _ hanswer⟩

end PowerLaw

end DegreeGraph
