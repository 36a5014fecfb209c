import DegreeGraph.Proofs.PowerLaw.Sample
import DegreeGraph.Proofs.Stepwise

/-!
# What becomes of a sample

If all that a sample is asked for is of the right kinds, then only three things can keep it from
being answered. A value is bad, which is found before anything is drawn; the source is refused; or
none of the candidates passes the test (`PowerLaw.IsTyped.answer_sampleStarting`).
-/

namespace DegreeGraph

open Stepwise

universe u

variable {σ : Type u} {law : PowerLaw} {fault : Fault}

/-- Numbers can be compared. -/
theorem exists_related {a b : Datum} (ha : a.numeric?.isSome) (hb : b.numeric?.isSome)
    (relation : Relation) : ∃ v, a.related relation b = .ok v := by
  obtain ⟨x, hx⟩ := Option.isSome_iff_exists.mp ha
  obtain ⟨y, hy⟩ := Option.isSome_iff_exists.mp hb
  have hatoms : a.relatedAtoms relation b = .ok ((x.compare? y).any relation.admits) := by
    simp only [Datum.relatedAtoms.eq_def, hx, hy]
  cases a with
  | list xs => cases hx
  | _ =>
    rw [Datum.related]
    exact ⟨_, hatoms⟩

namespace PowerLaw

/-- What a sample is asked for is of its kinds. -/
structure IsTyped (law : PowerLaw) : Prop where
  count : ∃ z, law.count = .int z
  exponent : ∃ x, law.exponent = .float x
  least : ∃ z, law.least = .int z
  greatest : law.greatest = .null ∨ ∃ z, law.greatest = .int z
  attempts : law.attempts = .int 1000

/-- A sample is refused before anything is drawn: for what it is asked for or, unless it is without
nodes, by its source. -/
def RefusedFor (law : PowerLaw) (start : Except Fault σ) (fault : Fault) : Prop :=
  law.check = .error fault
    ∨ law.check = .ok () ∧ law.isEmpty = false ∧ start = .error fault

theorem RefusedFor.answer_eq {start : Except Fault σ} (h : law.RefusedFor start fault)
    (source : Variates σ) : (law.sampleStarting source start).answer = .error fault := by
  rw [sampleStarting.eq_def]
  rcases h with hcheck | ⟨hcheck, hempty, rfl⟩
  · rw [hcheck]
    rfl
  · simp only [hcheck, hempty, Bool.false_eq_true, if_false]

namespace IsTyped

theorem exists_cap (h : law.IsTyped) : ∃ cap, law.cap = .ok cap ∧ cap.numeric?.isSome := by
  obtain ⟨n, hn⟩ := h.count
  have hlast : law.last = .int (n - 1) := by
    rw [last, hn]
    rfl
  rw [cap, hlast]
  rcases h.greatest with hnull | ⟨z, hz⟩
  · rw [hnull]
    exact ⟨_, rfl, rfl⟩
  · simp only [hz, Datum.related_less_int, bind, Except.bind]
    refine ⟨_, rfl, ?_⟩
    split
    · rfl
    · rfl

/-- What a sample is refused for is a bad value. -/
theorem isBadValue_of_check (h : law.IsTyped) (hcheck : law.check = .error fault) :
    fault.isBadValue = true := by
  obtain ⟨n, hn⟩ := h.count
  obtain ⟨x, hx⟩ := h.exponent
  obtain ⟨least, hleast⟩ := h.least
  obtain ⟨cap, hcap, hnumber⟩ := h.exists_cap
  obtain ⟨negative, hnegative⟩ := exists_related (hn ▸ rfl) rfl .less (a := law.count) (b := .int 0)
  obtain ⟨flat, hflat⟩ := exists_related (hx ▸ rfl) rfl .atMost (a := law.exponent) (b := .int 1)
  obtain ⟨low, hlow⟩ := exists_related (hleast ▸ rfl) rfl .less (a := law.least) (b := .int 0)
  obtain ⟨high, hhigh⟩ := exists_related (hleast ▸ rfl) hnumber .greater (a := law.least)
  simp only [check, hnegative, hflat, hcap, hlow, hhigh, bind, Except.bind] at hcheck
  cases negative with
  | true =>
    cases hcheck
    rfl
  | false =>
    cases flat with
    | true =>
      cases hcheck
      rfl
    | false =>
      simp only [Bool.false_eq_true, if_false] at hcheck
      split at hcheck
      · split at hcheck
        · cases hcheck
          rfl
        · cases hcheck
      · cases hcheck

theorem answer_draw (h : law.IsTyped) {source : Variates σ} {shape : Float} {last attempt tries : ℕ}
    {state : σ} : (∃ degrees, (law.draw source shape last attempt tries state).answer = .ok degrees)
      ∨ ∃ attempts n gamma, (law.draw source shape last attempt tries state).answer
        = .error (.noSample attempts n gamma) := by
  induction tries generalizing attempt state with
  | zero => exact .inr ⟨_, _, _, rfl⟩
  | succ tries ih =>
    obtain ⟨x, hx⟩ := h.exponent
    rw [draw]
    split
    · left
      rw [accepted, hx]
      exact ⟨_, rfl⟩
    · exact ih

/-- **A sample is answered, is refused, or is given up.** -/
theorem answer_sampleStarting (h : law.IsTyped) (source : Variates σ) (start : Except Fault σ) :
    (∃ degrees, (law.sampleStarting source start).answer = .ok degrees)
      ∨ (∃ fault, law.RefusedFor start fault
        ∧ (law.sampleStarting source start).answer = .error fault)
      ∨ ∃ attempts n gamma, (law.sampleStarting source start).answer
        = .error (.noSample attempts n gamma) := by
  obtain ⟨n, hn⟩ := h.count
  obtain ⟨x, hx⟩ := h.exponent
  have htries : law.tries = .ok 1000 := by
    rw [tries, h.attempts]
    rfl
  have hshape : law.shape = .ok (x - 1.0) := by
    rw [shape, hx]
  rw [sampleStarting.eq_def]
  split
  · rename_i fault hcheck
    exact .inr (.inl ⟨fault, .inl hcheck, rfl⟩)
  · rename_i hcheck
    split
    · exact .inl ⟨[], rfl⟩
    · rename_i hempty
      split
      · exact .inr (.inl ⟨_, .inr ⟨hcheck, Bool.eq_false_iff.mpr hempty, rfl⟩, rfl⟩)
      · rename_i state
        rw [htries]
        have hdrawn : law.drawSome source 1000 state
            = law.draw source (x - 1.0) (n - 1).toNat 1 1000 state := by
          rw [drawSome.eq_def, hshape, lastNode?_eq hn]
          rfl
        simp only [hdrawn]
        exact h.answer_draw.imp_right .inr

end IsTyped

end PowerLaw

end DegreeGraph
