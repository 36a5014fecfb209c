import DegreeGraph.Degrees.Feasibility
import DegreeGraph.Proofs.Degrees.HavelHakimi
import DegreeGraph.Proofs.Sampling.Exact
import DegreeGraph.Proofs.Sampling.Run

/-!
# Sampling with an exact test

With a test that passes exactly the graphical sequences, every place that a run reaches is sound
(`Reaches.isSound`). So whatever the draws are, the edges placed so far can always be completed to
a graph with the original degrees, a partner that is drawn and not joined yet is taken exactly if it
keeps that possible (`drawn_partner_taken_iff`), and a search that may try all partners finds one.
-/

namespace DegreeGraph

universe u

/-- The tests that are always there are exact. -/
theorem isExact_passes {test : Feasibility} (h : test = .erdosGallai ∨ test = .havelHakimi) :
    IsExact test.passes := by
  rcases h with rfl | rfl
  · exact fun ds ↦ ErdosGallai.passes_iff_isGraphical
  · exact fun ds ↦ HavelHakimi.passes_iff_isGraphical

variable {σ : Type u} {feasible : List ℤ → Bool} {settings : Settings} {source : Source σ}
  {degrees : List ℤ} {p₀ p : Progress} {s₀ s : σ} {pivot partner : ℕ}

/-! ## At a place with a right account -/

namespace Progress.Accounts

theorem fits_search (h : p.Accounts degrees) (feasible : List ℤ → Bool) (settings : Settings)
    (source : Source σ) (pivot : ℕ) (s : σ) : (search feasible settings source p pivot s).Fits
      (judge feasible settings.skipSpent p pivot) (partnersOf degrees.length pivot) := by
  rw [search, h.length_eq]
  exact fits_searchPool source settings _ 0 _ s

/-- A turn that places an edge leaves the account right, whatever the test is. -/
theorem step (h : p.Accounts degrees) (hpivot : selectPivot p.residual = some pivot)
    (hfound : (search feasible settings source p pivot s).partner = some partner) :
    (p.commit pivot partner).Accounts degrees := by
  have hfits := h.fits_search feasible settings source pivot s
  obtain ⟨hlt, hne⟩ := mem_partnersOf.mp (hfits.partner_mem hfound)
  obtain ⟨hnew, -, -⟩ := judge_eq_accepted_iff.mp (hfits.accepted hfound)
  exact h.commit (h.length_eq ▸ (selectPivot_eq_some_iff.mp hpivot).lt_length) hlt hne.symm hnew

end Progress.Accounts

theorem Reaches.accounts (h : Reaches feasible settings source (.start degrees) s₀ p s) :
    p.Accounts degrees := by
  induction h with
  | start => exact accounts_start degrees
  | turn _ hpivot hfound ih => exact ih.step hpivot hfound

/-- No turn draws more partners than there are other nodes. -/
theorem Reaches.draws_le (h : Reaches feasible settings source (.start degrees) s₀ p s) {t : Turn}
    (ht : t ∈ (runFrom feasible settings source p s).turns) : t.draws ≤ degrees.length - 1 := by
  obtain ⟨q, u, hq, hpivot, heq⟩ := h.exists_of_mem_turns ht
  have hlt := (selectPivot_eq_some_iff.mp hpivot).lt_length
  have hle := (hq.accounts.fits_search feasible settings source t.pivot u).length_trials_le
  rw [length_partnersOf (hq.accounts.length_eq ▸ hlt)] at hle
  rw [heq]
  exact hle

/-! ## At a sound place -/

namespace Progress.IsSound

theorem accepted_iff_of_mem (h : p.IsSound degrees) (hexact : IsExact feasible) (skipSpent : Bool)
    (hpivot : selectPivot p.residual = some pivot)
    (hpartner : partner ∈ partnersOf degrees.length pivot) :
    judge feasible skipSpent p pivot partner = .accepted
      ↔ edgeOf pivot partner ∉ p.edges ∧ ∃ G : SimpleGraph (Fin degrees.length),
        Realizes G degrees.get ∧ Contains G (p.commit pivot partner).edges := by
  have hp := selectPivot_eq_some_iff.mp hpivot
  obtain ⟨hlt, hne⟩ := mem_partnersOf.mp hpartner
  exact h.accepted_iff hexact skipSpent (v := ⟨pivot, h.length_eq ▸ hp.lt_length⟩)
    (j := ⟨partner, hlt⟩) hp fun heq ↦ hne (congrArg Fin.val heq).symm

theorem exists_mem_accepted (h : p.IsSound degrees) (hexact : IsExact feasible) (skipSpent : Bool)
    (hpivot : selectPivot p.residual = some pivot) :
    ∃ partner ∈ partnersOf degrees.length pivot,
      judge feasible skipSpent p pivot partner = .accepted := by
  have hp := selectPivot_eq_some_iff.mp hpivot
  obtain ⟨j, hne, haccepted⟩ := h.exists_accepted hexact skipSpent
    (v := ⟨pivot, h.length_eq ▸ hp.lt_length⟩) hp
  exact ⟨j, mem_partnersOf.mpr ⟨j.isLt, fun heq ↦ hne (Fin.ext heq.symm)⟩, haccepted⟩

/-- A search that may try all partners finds one. -/
theorem exists_partner (h : p.IsSound degrees) (hexact : IsExact feasible)
    (hallows : settings.Allows ((degrees.length : ℤ) - 1)) (source : Source σ)
    (hpivot : selectPivot p.residual = some pivot) (s : σ) :
    ∃ partner, (search feasible settings source p pivot s).partner = some partner := by
  obtain ⟨partner, hmem, haccepted⟩ := h.exists_mem_accepted hexact settings.skipSpent hpivot
  have hlt : pivot < degrees.length :=
    h.length_eq ▸ (selectPivot_eq_some_iff.mp hpivot).lt_length
  rw [search, h.length_eq]
  refine exists_partner_of_mem source s ?_ hmem haccepted
  rwa [length_partnersOf hlt, zero_add, Nat.cast_sub (Nat.one_le_of_lt hlt), Nat.cast_one]

/-- A turn that places an edge leads to a sound place. -/
theorem step (h : p.IsSound degrees) (hexact : IsExact feasible)
    (hpivot : selectPivot p.residual = some pivot)
    (hfound : (search feasible settings source p pivot s).partner = some partner) :
    (p.commit pivot partner).IsSound degrees := by
  have hp := selectPivot_eq_some_iff.mp hpivot
  have hfits := h.fits_search feasible settings source pivot s
  obtain ⟨hlt, hne⟩ := mem_partnersOf.mp (hfits.partner_mem hfound)
  obtain ⟨hnew, -, hfeasible⟩ := judge_eq_accepted_iff.mp (hfits.accepted hfound)
  have hlen : (p.lowered pivot partner).length = degrees.length := by
    rw [length_lowered, h.length_eq]
  exact h.commit (v := ⟨pivot, h.length_eq ▸ hp.lt_length⟩) (j := ⟨partner, hlt⟩)
    ⟨hp, fun heq ↦ hne (congrArg Fin.val heq).symm, hnew,
      (isGraphical_demandsIn hlen).mpr ((hexact _).mp hfeasible)⟩

end Progress.IsSound

/-! ## At every place that is reached -/

/-- **Every place that a run reaches is sound.** -/
theorem Reaches.isSound (h : Reaches feasible settings source p₀ s₀ p s) (hexact : IsExact feasible)
    (hstart : p₀.IsSound degrees) : p.IsSound degrees := by
  induction h with
  | start => exact hstart
  | turn _ hpivot hfound ih => exact ih.step hexact hpivot hfound

/-- **The acceptance test is exact.** With one of the tests that are always there, wherever a run
for a graphical sequence stands, its edges can be completed to a graph with the original degrees. A
partner that is drawn and not joined to the pivot yet is taken exactly if the edges and the one to
the partner can be completed. One that is joined already is not taken a second time. Some partner
can always be accepted. -/
theorem drawn_partner_taken_iff {test : Feasibility}
    (htest : test = .erdosGallai ∨ test = .havelHakimi) (settings : Settings) (source : Source σ)
    (hgraph : IsGraphical degrees.get)
    (hreach : Reaches test.passes settings source (.start degrees) s₀ p s) :
    (∃ G : SimpleGraph (Fin degrees.length), Realizes G degrees.get ∧ Contains G p.edges) ∧
      ∀ pivot, selectPivot p.residual = some pivot →
        (∀ t ∈ (search test.passes settings source p pivot s).trials,
          (edgeOf pivot t.partner ∉ p.edges →
            ((search test.passes settings source p pivot s).partner = some t.partner
              ↔ ∃ G : SimpleGraph (Fin degrees.length), Realizes G degrees.get
                ∧ Contains G (p.commit pivot t.partner).edges)) ∧
          (edgeOf pivot t.partner ∈ p.edges →
            (search test.passes settings source p pivot s).partner ≠ some t.partner)) ∧
        ∃ partner ∈ partnersOf degrees.length pivot,
          judge test.passes settings.skipSpent p pivot partner = .accepted := by
  have hexact := isExact_passes htest
  have hsound := hreach.isSound hexact (Progress.isSound_start hgraph)
  refine ⟨hsound.exists_completion, fun pivot hpivot ↦ ⟨fun t ht ↦ ?_,
    hsound.exists_mem_accepted hexact settings.skipSpent hpivot⟩⟩
  have hfits := hsound.fits_search test.passes settings source pivot s
  have hiff := hsound.accepted_iff_of_mem hexact settings.skipSpent hpivot (hfits.mem_of_trial ht)
  rw [ne_eq, hfits.partner_eq_some_iff_of_mem ht, hiff]
  exact ⟨fun hnew ↦ and_iff_right hnew, fun hmem htaken ↦ htaken.1 hmem⟩

/-! ## A triangle after its first edge -/

/-- The source that always draws the first partner of the pool. -/
def frontSource : Source Unit where
  draw _ last := (⟨0, Nat.succ_pos last⟩, ())

theorem isGraphical_triangle : IsGraphical [2, 2, 2].get :=
  ErdosGallai.passes_iff_isGraphical.mp (by decide)

theorem reaches_first_edge :
    Reaches Feasibility.erdosGallai.passes {} frontSource (.start [2, 2, 2]) ()
      ⟨[1, 1, 2], [(0, 1)]⟩ () := by
  have hfound : (search Feasibility.erdosGallai.passes {} frontSource (.start [2, 2, 2]) 0
      ()).partner = some 1 := by cbv
  exact Reaches.start.turn (by decide : selectPivot [2, 2, 2] = some 0) hfound

/-- The pivot draws the partner that it has already, and then the other one. -/
theorem search_first_edge :
    let found := search Feasibility.erdosGallai.passes {} frontSource ⟨[1, 1, 2], [(0, 1)]⟩ 0 ()
    found.trials = [⟨2, 1, .adjacent⟩, ⟨1, 2, .accepted⟩] ∧ found.partner = some 2 :=
  ⟨by cbv, by cbv⟩

/-- The other partner is not joined yet and is taken, so the edges and the one to it can be
completed. -/
theorem drawn_partner_taken_iff_triangle :
    IsGraphical [2, 2, 2].get ∧
      Reaches Feasibility.erdosGallai.passes {} frontSource (.start [2, 2, 2]) ()
        ⟨[1, 1, 2], [(0, 1)]⟩ () ∧
      (∃ G : SimpleGraph (Fin 3), Realizes G [2, 2, 2].get ∧ Contains G [(0, 1)]) ∧
      (search Feasibility.erdosGallai.passes {} frontSource ⟨[1, 1, 2], [(0, 1)]⟩ 0 ()).partner
        = some 2 ∧
      ∃ G : SimpleGraph (Fin 3), Realizes G [2, 2, 2].get ∧ Contains G [(0, 1), (0, 2)] := by
  obtain ⟨hplaced, hdrawn⟩ := drawn_partner_taken_iff (Or.inl rfl) {} frontSource
    isGraphical_triangle reaches_first_edge
  obtain ⟨htaken, -⟩ := hdrawn 0 (by decide)
  obtain ⟨htrials, hpartner⟩ := search_first_edge
  have hnew : edgeOf 0 2 ∉ [((0, 1) : Edge)] := by decide
  have hcompleted := ((htaken ⟨1, 2, .accepted⟩ (by simp [htrials])).1 hnew).mp hpartner
  exact ⟨isGraphical_triangle, reaches_first_edge, hplaced, hpartner, hcompleted⟩

/-- **A partner that is joined already is drawn and not taken**, although the edges and the one to it
can be completed: they are the edges that are there. -/
theorem drawn_partner_joined_before :
    Reaches Feasibility.erdosGallai.passes {} frontSource (.start [2, 2, 2]) ()
        ⟨[1, 1, 2], [(0, 1)]⟩ () ∧
      selectPivot [1, 1, 2] = some 0 ∧
      ⟨2, 1, .adjacent⟩ ∈ (search Feasibility.erdosGallai.passes {} frontSource
        ⟨[1, 1, 2], [(0, 1)]⟩ 0 ()).trials ∧
      (search Feasibility.erdosGallai.passes {} frontSource ⟨[1, 1, 2], [(0, 1)]⟩ 0 ()).partner
        ≠ some 1 ∧
      ∃ G : SimpleGraph (Fin 3), Realizes G [2, 2, 2].get ∧
        Contains G ((⟨[1, 1, 2], [(0, 1)]⟩ : Progress).commit 0 1).edges := by
  obtain ⟨htrials, hpartner⟩ := search_first_edge
  have hsound := reaches_first_edge.isSound (isExact_passes (Or.inl rfl))
    (Progress.isSound_start isGraphical_triangle)
  obtain ⟨G, hG, hcontains⟩ := hsound.exists_completion
  refine ⟨reaches_first_edge, by decide, by simp [htrials], ?_, G, hG, ?_⟩
  · rw [hpartner]
    decide
  · exact hcontains.concat_of_mem (by decide)

end DegreeGraph
