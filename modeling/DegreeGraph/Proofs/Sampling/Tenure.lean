import DegreeGraph.Proofs.Sampling.Progress
import DegreeGraph.Proofs.Sampling.Run

/-!
# A pivot keeps its turn

The pivot has the least positive demand, and a placed edge lowers two demands by one. The partner
asked for at least as much as the pivot, so it does not get below it; a tie cannot move the choice
either, since the earlier of two equal nodes was the pivot before. So the pivot is chosen again and
again until its demand is met (`IsPivot.commit`), and as no edge raises a demand it is never chosen
afterwards.

A run is therefore parted into tenures, the turns of one node in a row, each as long as the demand
of its node when it begins. Only a run that gives up cuts its last tenure short. For the placed
edges this means that each has an end that is the pivot or asks for nothing any more
(`Reaches.exists_end_served`), which is what the sampler rests on when the test is exact. Here the
test is arbitrary, and demands may fall below zero.
-/

namespace DegreeGraph

universe u

variable {σ : Type u} {feasible : List ℤ → Bool} {settings : Settings} {source : Source σ}
  {p q p₀ : Progress} {s u s₀ : σ} {pivot partner : ℕ}

/-! ## One turn -/

theorem partner_ne_pivot (hfound : (search feasible settings source p pivot s).partner
    = some partner) : partner ≠ pivot :=
  (mem_partnersOf.mp ((fits_searchPool source settings _ 0 _ s).partner_mem hfound)).2

theorem residual_commit_pivot (hpivot : IsPivot p.residual pivot) (hne : partner ≠ pivot) :
    (p.commit pivot partner).residual.getD pivot 0 = p.residual.getD pivot 0 - 1 := by
  rw [Progress.commit, getD_lowered p pivot partner pivot hpivot.lt_length, if_pos rfl,
    if_neg hne.symm]
  ring

/-- After its turn a pivot is chosen again, or it asks for nothing any more. -/
theorem selectPivot_commit_or_le (hpivot : selectPivot p.residual = some pivot)
    (hne : partner ≠ pivot) : selectPivot (p.commit pivot partner).residual = some pivot ∨
      (p.commit pivot partner).residual.getD pivot 0 ≤ 0 := by
  rcases lt_or_ge 0 ((p.commit pivot partner).residual.getD pivot 0) with hopen | hmet
  · exact Or.inl (selectPivot_eq_some_iff.mpr
      ((selectPivot_eq_some_iff.mp hpivot).commit hne hopen))
  · exact Or.inr hmet

/-- Where a pivot is chosen, it has a turn. -/
theorem turns_ne_nil (hpivot : selectPivot p.residual = some pivot) :
    (runFrom feasible settings source p s).turns ≠ [] := by
  cases hfound : (search feasible settings source p pivot s).partner with
  | none =>
    rw [runFrom_stuck hpivot hfound]
    exact List.cons_ne_nil _ _
  | some partner =>
    rw [runFrom_turn hpivot hfound]
    exact List.cons_ne_nil _ _

namespace Reaches

theorem trans (h : Reaches feasible settings source p₀ s₀ p s)
    (h' : Reaches feasible settings source p s q u) :
    Reaches feasible settings source p₀ s₀ q u := by
  induction h' with
  | start => exact h
  | turn _ hpivot hfound ih => exact ih.turn hpivot hfound

theorem residual_le (h : Reaches feasible settings source p s q u) (i : ℕ) :
    q.residual.getD i 0 ≤ p.residual.getD i 0 := by
  induction h with
  | start => exact le_rfl
  | @turn q u pivot partner _ hpivot hfound ih =>
    exact (q.getD_commit_le pivot partner i).trans ih

/-- A run that has got somewhere gives up if it gives up from there. -/
theorem givenUp?_eq (h : Reaches feasible settings source p s q u) :
    (runFrom feasible settings source q u).givenUp?
      = (runFrom feasible settings source p s).givenUp? := by
  induction h with
  | start => rfl
  | turn _ hpivot hfound ih => rw [← ih, givenUp?_runFrom_turn hpivot hfound]

end Reaches

/-! ## The placed edges -/

/-- One end of an edge is the pivot, or asks for nothing any more. -/
def HasEndServed (residual : List ℤ) (pivot? : Option ℕ) (e : Edge) : Prop :=
  ∃ i, (i = e.1 ∨ i = e.2) ∧ (pivot? = some i ∨ residual.getD i 0 ≤ 0)

theorem hasEndServed_edgeOf (residual : List ℤ) (pivot partner : ℕ) :
    HasEndServed residual (some pivot) (edgeOf pivot partner) := by
  refine ⟨pivot, ?_, Or.inl rfl⟩
  rw [edgeOf]
  split_ifs
  · exact Or.inl rfl
  · exact Or.inr rfl

/-- While the turn of a pivot ends and the next one is not chosen yet, it still counts as the
pivot. -/
theorem hasEndServed_commit
    (h : ∀ e ∈ p.edges, HasEndServed p.residual (some pivot) e) {e : Edge}
    (he : e ∈ (p.commit pivot partner).edges) :
    HasEndServed (p.commit pivot partner).residual (some pivot) e := by
  rcases List.mem_append.mp he with hold | hnew
  · obtain ⟨i, hi, hserved⟩ := h e hold
    exact ⟨i, hi, hserved.imp_right (p.getD_commit_le pivot partner i).trans⟩
  · rw [List.mem_singleton.mp hnew]
    exact hasEndServed_edgeOf _ pivot partner

/-- **Wherever a run stands, each edge has an end that is the pivot or asks for nothing.** -/
theorem Reaches.exists_end_served {degrees : List ℤ}
    (h : Reaches feasible settings source (.start degrees) s₀ p s) :
    ∀ e ∈ p.edges, HasEndServed p.residual (selectPivot p.residual) e := by
  induction h with
  | start => exact fun e he ↦ absurd he List.not_mem_nil
  | @turn p s pivot partner hreach hpivot hfound ih =>
    intro e he
    rw [hpivot] at ih
    obtain ⟨i, hi, hserved⟩ := hasEndServed_commit ih he
    refine ⟨i, hi, ?_⟩
    rcases hserved with hchosen | hmet
    · obtain rfl := Option.some.inj hchosen
      exact selectPivot_commit_or_le hpivot (partner_ne_pivot hfound)
    · exact Or.inr hmet

/-! ## Tenures -/

/-- Turns of one node in a row, and where the run stood when they began. -/
structure Tenure (σ : Type u) where
  place : Progress
  state : σ
  pivot : ℕ
  turns : List Turn

/-- The tenure is what a run does first at its place, and other tenures are the rest. It has as many
turns as its node asked for, unless it is the last one and the run gives up. -/
structure Tenure.Heads (feasible : List ℤ → Bool) (settings : Settings) (source : Source σ)
    (b : Tenure σ) (later : List (Tenure σ)) : Prop where
  chosen : selectPivot b.place.residual = some b.pivot
  turns_eq : (runFrom feasible settings source b.place b.state).turns
    = b.turns ++ later.flatMap Tenure.turns
  pivot_eq : ∀ t ∈ b.turns, t.pivot = b.pivot
  ne_nil : b.turns ≠ []
  length_le : (b.turns.length : ℤ) ≤ b.place.residual.getD b.pivot 0
  length_eq : later ≠ [] ∨ (runFrom feasible settings source b.place b.state).givenUp? = none →
    (b.turns.length : ℤ) = b.place.residual.getD b.pivot 0

/-- The run from a place is parted into tenures, no two of which belong to the same node. -/
structure IsParted (feasible : List ℤ → Bool) (settings : Settings) (source : Source σ)
    (p : Progress) (s : σ) (tenures : List (Tenure σ)) : Prop where
  turns_eq : (runFrom feasible settings source p s).turns = tenures.flatMap Tenure.turns
  first : ∀ b ∈ tenures.head?, b.place = p ∧ b.state = s
  nodup : (tenures.map Tenure.pivot).Nodup
  heads : ∀ b later, b :: later <:+ tenures → b.Heads feasible settings source later
  reached : ∀ b ∈ tenures, Reaches feasible settings source p s b.place b.state

namespace IsParted

variable {tenures later : List (Tenure σ)} {b : Tenure σ}

/-- The node of a tenure asks for something when the run begins. -/
theorem pos_of_mem (h : IsParted feasible settings source p s tenures) (hb : b ∈ tenures) :
    0 < p.residual.getD b.pivot 0 := by
  obtain ⟨earlier, later, rfl⟩ := List.append_of_mem hb
  have hheads := h.heads b later (List.suffix_append earlier (b :: later))
  have hpos := (selectPivot_eq_some_iff.mp hheads.chosen).pos
  exact hpos.trans_le ((h.reached b hb).residual_le b.pivot)

theorem nil (hpivot : selectPivot p.residual = none) :
    IsParted feasible settings source p s [] := by
  refine ⟨?_, fun b hb ↦ by simp at hb, List.nodup_nil, fun b later hsuffix ↦ ?_,
    fun b hb ↦ absurd hb List.not_mem_nil⟩
  · rw [runFrom_met hpivot]
    rfl
  · exact absurd (List.suffix_nil.mp hsuffix) (List.cons_ne_nil b later)

/-- A search that fails is a tenure that is cut short. -/
theorem stuck (hpivot : selectPivot p.residual = some pivot)
    (hnone : (search feasible settings source p pivot s).partner = none) :
    IsParted feasible settings source p s
      [⟨p, s, pivot, [turnAt feasible settings source p s pivot]⟩] := by
  have hpos := (selectPivot_eq_some_iff.mp hpivot).pos
  have hturns := runFrom_stuck hpivot hnone
  refine ⟨by rw [hturns]; rfl, by simp, List.nodup_singleton pivot, ?_, ?_⟩
  · intro b later hsuffix
    rcases List.suffix_cons_iff.mp hsuffix with heq | hsuffix
    · obtain ⟨rfl, rfl⟩ := List.cons.inj heq
      refine ⟨hpivot, by rw [hturns]; rfl, ?_, List.cons_ne_nil _ _, ?_, ?_⟩
      · intro t ht
        rw [List.mem_singleton.mp ht]
        rfl
      · exact_mod_cast hpos
      · rintro (hne | hdone)
        · exact absurd rfl hne
        · rw [hturns] at hdone
          simp [Run.givenUp?, turnAt, hnone] at hdone
    · exact absurd (List.suffix_nil.mp hsuffix) (List.cons_ne_nil b later)
  · intro b hb
    rw [List.mem_singleton.mp hb]
    exact Reaches.start

section Turn

variable (hpivot : selectPivot p.residual = some pivot)
  (hfound : (search feasible settings source p pivot s).partner = some partner)
include hpivot hfound

/-- The turn is the first one of a tenure that goes on. -/
theorem grow (hopen : selectPivot (p.commit pivot partner).residual = some pivot)
    (h : IsParted feasible settings source (p.commit pivot partner)
      (search feasible settings source p pivot s).state (b :: later)) :
    IsParted feasible settings source p s
      (⟨p, s, pivot, turnAt feasible settings source p s pivot :: b.turns⟩ :: later) := by
  have hstep : Reaches feasible settings source p s _ _ := Reaches.start.turn hpivot hfound
  have hheads := h.heads b later List.suffix_rfl
  obtain ⟨place, state, v, turns⟩ := b
  obtain ⟨rfl, rfl⟩ := h.first _ rfl
  obtain rfl : v = pivot := Option.some.inj (hheads.chosen.symm.trans hopen)
  have hone := residual_commit_pivot (selectPivot_eq_some_iff.mp hpivot) (partner_ne_pivot hfound)
  have hturns := runFrom_turn hpivot hfound
  refine ⟨?_, by simp, h.nodup, ?_, ?_⟩
  · rw [hturns, h.turns_eq]
    rfl
  · intro c rest hsuffix
    rcases List.suffix_cons_iff.mp hsuffix with heq | hsuffix
    · obtain ⟨rfl, rfl⟩ := List.cons.inj heq
      refine ⟨hpivot, ?_, ?_, List.cons_ne_nil _ _, ?_, fun hlast ↦ ?_⟩
      · rw [hturns, hheads.turns_eq]
        rfl
      · intro t ht
        rcases List.mem_cons.mp ht with rfl | ht
        · rfl
        · exact hheads.pivot_eq t ht
      · have hle : (turns.length : ℤ) ≤ (p.commit v partner).residual.getD v 0 := hheads.length_le
        have hlonger : ((turns.length + 1 : ℕ) : ℤ) ≤ p.residual.getD v 0 := by omega
        exact hlonger
      · rw [givenUp?_runFrom_turn hpivot hfound] at hlast
        have heq : (turns.length : ℤ) = (p.commit v partner).residual.getD v 0 :=
          hheads.length_eq hlast
        have hlonger : ((turns.length + 1 : ℕ) : ℤ) = p.residual.getD v 0 := by omega
        exact hlonger
    · exact h.heads c rest (hsuffix.trans (List.suffix_cons _ _))
  · intro c hc
    rcases List.mem_cons.mp hc with rfl | hc
    · exact Reaches.start
    · exact hstep.trans (h.reached c (List.mem_cons_of_mem _ hc))

/-- The turn is the only one of a tenure, and the demand of its node is met. -/
theorem single (hmet : (p.commit pivot partner).residual.getD pivot 0 ≤ 0)
    (h : IsParted feasible settings source (p.commit pivot partner)
      (search feasible settings source p pivot s).state tenures) :
    IsParted feasible settings source p s
      (⟨p, s, pivot, [turnAt feasible settings source p s pivot]⟩ :: tenures) := by
  have hstep : Reaches feasible settings source p s _ _ := Reaches.start.turn hpivot hfound
  have hpos := (selectPivot_eq_some_iff.mp hpivot).pos
  have hone := residual_commit_pivot (selectPivot_eq_some_iff.mp hpivot) (partner_ne_pivot hfound)
  have hlength : (1 : ℤ) = p.residual.getD pivot 0 := by
    rw [hone] at hmet
    omega
  have hturns := runFrom_turn hpivot hfound
  refine ⟨?_, by simp, ?_, ?_, ?_⟩
  · rw [hturns, h.turns_eq]
    rfl
  · refine List.nodup_cons.mpr ⟨fun hmem ↦ ?_, h.nodup⟩
    obtain ⟨b, hb, rfl⟩ := List.mem_map.mp hmem
    exact absurd (h.pos_of_mem hb) (not_lt.mpr hmet)
  · intro c rest hsuffix
    rcases List.suffix_cons_iff.mp hsuffix with heq | hsuffix
    · obtain ⟨rfl, rfl⟩ := List.cons.inj heq
      refine ⟨hpivot, ?_, ?_, List.cons_ne_nil _ _, hlength.le, fun _ ↦ hlength⟩
      · rw [hturns, h.turns_eq]
        rfl
      · intro t ht
        rw [List.mem_singleton.mp ht]
        rfl
    · exact h.heads c rest hsuffix
  · intro c hc
    rcases List.mem_cons.mp hc with rfl | hc
    · exact Reaches.start
    · exact hstep.trans (h.reached c hc)

end Turn

end IsParted

/-- Every run is parted into tenures. -/
theorem exists_isParted (feasible : List ℤ → Bool) (settings : Settings) (source : Source σ)
    (p : Progress) (s : σ) : ∃ tenures, IsParted feasible settings source p s tenures := by
  induction p, s using run_induction feasible settings source with
  | met p s hpivot => exact ⟨[], IsParted.nil hpivot⟩
  | stuck p s pivot hpivot hnone => exact ⟨_, IsParted.stuck hpivot hnone⟩
  | turn p s pivot partner hpivot hfound ih =>
    obtain ⟨tenures, h⟩ := ih
    rcases selectPivot_commit_or_le hpivot (partner_ne_pivot hfound) with hopen | hmet
    · cases tenures with
      | nil =>
        -- The pivot has another turn, so the run does not end here.
        exact absurd h.turns_eq (turns_ne_nil hopen)
      | cons b later => exact ⟨_, IsParted.grow hpivot hfound hopen h⟩
    · exact ⟨_, IsParted.single hpivot hfound hmet h⟩

/-- **A pivot keeps its turn until its demand is met.** Whatever the test, the settings and the
draws are, the turns of a run are parted into tenures of different nodes. A tenure has as many turns
as its node asks for when it begins; only the last one may have less, if the run gives up in it.
Wherever the run stands, and also while a turn ends, each placed edge has an end that is the pivot
or asks for nothing any more. -/
theorem pivot_keeps_turn (feasible : List ℤ → Bool) (settings : Settings) (source : Source σ)
    (degrees : List ℤ) (s₀ : σ) :
    let r := run feasible settings source degrees s₀
    (∃ tenures : List (Tenure σ), r.turns = tenures.flatMap Tenure.turns
      ∧ (tenures.map Tenure.pivot).Nodup
      ∧ ∀ b later, b :: later <:+ tenures →
        Reaches feasible settings source (.start degrees) s₀ b.place b.state
        ∧ selectPivot b.place.residual = some b.pivot
        ∧ (runFrom feasible settings source b.place b.state).turns
          = b.turns ++ later.flatMap Tenure.turns
        ∧ b.turns ≠ [] ∧ (∀ t ∈ b.turns, t.pivot = b.pivot)
        ∧ (b.turns.length : ℤ) ≤ b.place.residual.getD b.pivot 0
        ∧ (later ≠ [] ∨ r.givenUp? = none →
          (b.turns.length : ℤ) = b.place.residual.getD b.pivot 0)) ∧
    ∀ p s, Reaches feasible settings source (.start degrees) s₀ p s →
      (∀ e ∈ p.edges, HasEndServed p.residual (selectPivot p.residual) e) ∧
      ∀ pivot partner, selectPivot p.residual = some pivot →
        (search feasible settings source p pivot s).partner = some partner →
        ∀ e ∈ (p.commit pivot partner).edges,
          HasEndServed (p.commit pivot partner).residual (some pivot) e := by
  intro r
  constructor
  · obtain ⟨tenures, h⟩ := exists_isParted feasible settings source (.start degrees) s₀
    refine ⟨tenures, h.turns_eq, h.nodup, fun b later hsuffix ↦ ?_⟩
    have hheads := h.heads b later hsuffix
    have hreached := h.reached b (hsuffix.subset List.mem_cons_self)
    refine ⟨hreached, hheads.chosen, hheads.turns_eq, hheads.ne_nil, hheads.pivot_eq,
      hheads.length_le, fun hlast ↦ hheads.length_eq ?_⟩
    rw [hreached.givenUp?_eq]
    exact hlast
  · intro p s hreach
    have hserved := hreach.exists_end_served
    refine ⟨hserved, fun pivot partner hpivot _ e he ↦ ?_⟩
    rw [hpivot] at hserved
    exact hasEndServed_commit hserved he

end DegreeGraph
