import DegreeGraph.PowerLaw.Sample
import DegreeGraph.Proofs.Degrees.ErdosGallai

/-!
# What a sample of a power law is

Whatever the variates are, a candidate has one degree for each node, also after it was mended. The
only candidates that are answered are those that pass the test, and the sequence without nodes
passes it too. So every answer is a graphical sequence of the length that was asked for
(`PowerLaw.isGraphical_of_sample`), and each of its entries is less than the number of nodes
(`natAbs_lt_length_of_isGraphical`).
-/

namespace DegreeGraph

universe u

variable {σ : Type u} {source : Variates σ} {state : σ} {degrees : List ℤ}

theorem nonneg_of_isGraphical (h : IsGraphical degrees.get) {d : ℤ} (hd : d ∈ degrees) : 0 ≤ d := by
  obtain ⟨i, rfl⟩ := List.get_of_mem hd
  exact (isGraphical_iff.mp h).2.nonneg i

/-- A degree is less than the number of nodes, and it is not negative. -/
theorem natAbs_lt_length_of_isGraphical (h : IsGraphical degrees.get) {d : ℤ} (hd : d ∈ degrees) :
    d.natAbs < degrees.length := by
  have hnonneg := nonneg_of_isGraphical h hd
  obtain ⟨i, rfl⟩ := List.get_of_mem hd
  have hlt := (isGraphical_iff.mp h).2.lt_card i
  rw [Fintype.card_fin] at hlt
  omega

namespace PowerLaw

variable {p : PowerLaw} {shape : Float} {last attempt tries : ℕ} {n : ℤ}

/-! ## Candidates -/

theorem length_mend (bound : ℤ) (degrees : List ℤ) (place : ℕ) :
    (mend bound degrees place).length = degrees.length := by
  rw [mend, List.length_modify]

/-- What the variates of the next batch are cut to. -/
def drawnFrom (p : PowerLaw) (source : Variates σ) (shape : Float) (last : ℕ) (state : σ) :
    List ℤ :=
  (source.batch state shape (last + 1)).1.val.map p.degree

theorem length_drawnFrom (p : PowerLaw) (source : Variates σ) (shape : Float) (last : ℕ)
    (state : σ) : (p.drawnFrom source shape last state).length = last + 1 := by
  rw [drawnFrom, List.length_map]
  exact (source.batch state shape (last + 1)).1.property

/-- A candidate is what was drawn, or what was drawn with one place mended. -/
theorem candidate_cases (p : PowerLaw) (source : Variates σ) (shape : Float) (last : ℕ)
    (state : σ) :
    (Even (p.drawnFrom source shape last state).sum ∧
      (p.candidate source shape last state).degrees = p.drawnFrom source shape last state) ∨
    (¬Even (p.drawnFrom source shape last state).sum ∧ ∃ place < last + 1,
      (p.candidate source shape last state).degrees
        = mend p.raisedBelow (p.drawnFrom source shape last state) place) := by
  rw [← total_eq_sum, Int.even_iff]
  simp only [candidate]
  split
  · rename_i heven
    exact .inl ⟨heven, rfl⟩
  · rename_i hodd
    exact .inr ⟨hodd, _, Fin.is_lt _, rfl⟩

/-- A candidate has a degree for every node. -/
theorem length_candidate (p : PowerLaw) (source : Variates σ) (shape : Float) (last : ℕ)
    (state : σ) : (p.candidate source shape last state).degrees.length = last + 1 := by
  rcases candidate_cases p source shape last state with ⟨-, hsame⟩ | ⟨-, place, -, hmend⟩
  · rw [hsame, length_drawnFrom]
  · rw [hmend, length_mend, length_drawnFrom]

theorem degrees_of_accepted {c : Candidate σ} (h : (p.accepted attempt c).answer = .ok degrees) :
    degrees = c.degrees := by
  rw [accepted] at h
  split at h
  · exact (Except.ok.inj h).symm
  · cases h

/-- The answer of a search among candidates is one that passes. -/
theorem passes_of_draw (h : (p.draw source shape last attempt tries state).answer = .ok degrees) :
    ErdosGallai.passes degrees = true ∧ degrees.length = last + 1 := by
  -- The number of the attempt and the state of the source make no difference to the test.
  induction tries generalizing attempt state with
  | zero => cases h
  | succ tries ih =>
    rw [draw] at h
    split at h
    · rename_i hpasses
      rw [degrees_of_accepted h]
      exact ⟨hpasses, length_candidate p source shape last state⟩
    · exact ih h

/-! ## Samples -/

theorem count_nonneg_of_check (hcount : p.count = .int n) (h : p.check = .ok ()) : 0 ≤ n := by
  by_contra hneg
  have hless : p.count.related .less (.int 0) = .ok true := by
    rw [hcount, Datum.related_less_int, decide_eq_true (not_le.mp hneg)]
  rw [check, hless] at h
  cases h

theorem isEmpty_iff (hcount : p.count = .int n) : p.isEmpty = true ↔ n = 0 := by
  rw [isEmpty, hcount, Datum.same_int, decide_eq_true_iff]

theorem lastNode?_eq (hcount : p.count = .int n) : p.lastNode? = some (n - 1).toNat := by
  rw [lastNode?, hcount]
  rfl

theorem exists_draw_of_drawSome
    (h : (p.drawSome source tries state).answer = .ok degrees) (hcount : p.count = .int n) :
    ∃ shape, (p.draw source shape (n - 1).toNat 1 tries state).answer = .ok degrees := by
  rw [drawSome.eq_def, lastNode?_eq hcount] at h
  split at h
  · cases h
  · cases h
  · rename_i hnone
    cases hnone
  · rename_i hlast
    cases hlast
    exact ⟨_, h⟩

/-- What is answered from a source that may be refused is answered from the state in which it would
start. -/
theorem answer_sample_of_starting {start : Except Fault σ} (hstart : ∀ t, start = .ok t → t = state)
    (h : (p.sampleStarting source start).answer = .ok degrees) :
    (p.sample source state).answer = .ok degrees := by
  cases start with
  | ok t => rwa [hstart t rfl] at h
  | error fault =>
    rw [sampleStarting] at h
    rw [sample, sampleStarting]
    split at h
    · cases h
    · split at h
      · rename_i hempty
        rwa [if_pos hempty]
      · cases h

/-- **A sample has a degree for every node and passes the test.** -/
theorem passes_of_sample (hcount : p.count = .int n)
    (h : (p.sample source state).answer = .ok degrees) :
    ErdosGallai.passes degrees = true ∧ (degrees.length : ℤ) = n := by
  rw [sample, sampleStarting] at h
  split at h
  · cases h
  · rename_i hcheck
    have hnonneg := count_nonneg_of_check hcount hcheck
    split at h
    · rename_i hempty
      cases h
      exact ⟨rfl, ((isEmpty_iff hcount).mp hempty).symm⟩
    · rename_i hempty
      have hne : n ≠ 0 := fun heq ↦ hempty ((isEmpty_iff hcount).mpr heq)
      simp only at h
      split at h
      · cases h
      · obtain ⟨shape, hdraw⟩ := exists_draw_of_drawSome h hcount
        obtain ⟨hpasses, hlength⟩ := passes_of_draw hdraw
        refine ⟨hpasses, ?_⟩
        omega

theorem isGraphical_of_sample (hcount : p.count = .int n)
    (h : (p.sample source state).answer = .ok degrees) :
    IsGraphical degrees.get ∧ (degrees.length : ℤ) = n :=
  (passes_of_sample hcount h).imp_left ErdosGallai.passes_iff_isGraphical.mp

end PowerLaw

end DegreeGraph
