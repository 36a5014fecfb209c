import DegreeGraph.Total
import DegreeGraph.Proofs.Demand.Graphical

/-!
# Degree sequences

A list of integers is read as demands of the nodes `0, …, n - 1`. Whether it has a graph depends
neither on the order of its entries nor on its zeros, because nodes may be renamed and nodes
without edges may be left out. Both are the same fact: demands may be pulled back along an
embedding of nodes that misses only nodes without demand (`isGraphical_comp`).
-/

namespace DegreeGraph

open Finset

universe u v

/-! ## Renaming nodes -/

section Embedding

variable {V : Type u} {W : Type v} [Fintype V] [Fintype W] {d : V → ℤ} (f : W ↪ V)

theorem Realizes.map {G : SimpleGraph W} (h : Realizes G (d ∘ f))
    (hd : ∀ v ∉ Set.range f, d v = 0) :
    Realizes (G.map f) d := by
  classical
  rw [realizes_iff] at h ⊢
  intro v
  by_cases hv : v ∈ Set.range f
  · obtain ⟨w, rfl⟩ := hv
    have hnbr : (G.map f).neighborFinset (f w) = (G.neighborFinset w).map f := by
      ext x
      simp only [SimpleGraph.mem_neighborFinset, SimpleGraph.map_adj, mem_map, f.injective.eq_iff]
      grind
    rw [← SimpleGraph.card_neighborFinset_eq_degree, hnbr, card_map,
      SimpleGraph.card_neighborFinset_eq_degree, h w, Function.comp_apply]
  · rw [hd v hv, Nat.cast_eq_zero, SimpleGraph.degree_eq_zero]
    rintro x ⟨-, a, b, -, rfl, rfl⟩
    exact hv ⟨a, rfl⟩

theorem Realizes.comap {G : SimpleGraph V} (h : Realizes G d) (hd : ∀ v ∉ Set.range f, d v = 0) :
    Realizes (G.comap f) (d ∘ f) := by
  classical
  have hnot {v : V} (hv : v ∉ Set.range f) (w : V) : ¬G.Adj w v := fun hadj ↦
    h.not_adj (hd v hv) hadj.symm
  rw [realizes_iff] at h ⊢
  intro w
  have hnbr : G.neighborFinset (f w) = ((G.comap f).neighborFinset w).map f := by
    ext x
    simp only [SimpleGraph.mem_neighborFinset, SimpleGraph.comap_adj, mem_map]
    constructor
    · intro hadj
      by_cases hx : x ∈ Set.range f
      · obtain ⟨y, rfl⟩ := hx
        exact ⟨y, hadj, rfl⟩
      · exact absurd hadj (hnot hx _)
    · rintro ⟨y, hadj, rfl⟩
      exact hadj
  rw [Function.comp_apply, ← h (f w), ← SimpleGraph.card_neighborFinset_eq_degree,
    ← SimpleGraph.card_neighborFinset_eq_degree, hnbr, card_map]

theorem isGraphical_comp (hd : ∀ v ∉ Set.range f, d v = 0) :
    IsGraphical (d ∘ f) ↔ IsGraphical d :=
  ⟨fun ⟨G, hG⟩ ↦ ⟨G.map f, hG.map f hd⟩, fun ⟨G, hG⟩ ↦ ⟨G.comap f, hG.comap f hd⟩⟩

end Embedding

/-! ## Orders and zeros -/

variable {ds es : List Int}

theorem exists_equiv_of_perm {α : Type u} {xs ys : List α} (h : xs.Perm ys) :
    ∃ e : Fin xs.length ≃ Fin ys.length, ∀ i, ys.get (e i) = xs.get i := by
  induction h with
  | nil => exact ⟨Equiv.refl _, fun i ↦ i.elim0⟩
  | cons x _ ih =>
    obtain ⟨e, he⟩ := ih
    refine ⟨(finSuccEquiv _).trans (e.optionCongr.trans (finSuccEquiv _).symm), fun i ↦ ?_⟩
    cases i using Fin.cases with
    | zero => simp
    | succ i => simpa using he i
  | swap x y zs =>
    refine ⟨Equiv.swap 0 1, fun i ↦ ?_⟩
    cases i using Fin.cases with
    | zero => simp
    | succ i =>
      cases i using Fin.cases with
      | zero => simp
      | succ i => rw [Equiv.swap_apply_of_ne_of_ne (by simp) (by simp [Fin.ext_iff])]; simp
  | trans _ _ ih₁ ih₂ =>
    obtain ⟨e₁, he₁⟩ := ih₁
    obtain ⟨e₂, he₂⟩ := ih₂
    exact ⟨e₁.trans e₂, fun i ↦ by rw [Equiv.trans_apply, he₂, he₁]⟩

theorem isGraphical_perm (h : ds.Perm es) : IsGraphical ds.get ↔ IsGraphical es.get := by
  obtain ⟨e, he⟩ := exists_equiv_of_perm h
  have hcomp : ds.get = es.get ∘ e.toEmbedding := funext fun i ↦ (he i).symm
  rw [hcomp]
  exact isGraphical_comp e.toEmbedding fun v hv ↦ absurd ⟨e.symm v, by simp⟩ hv

theorem isGraphical_cons_zero : IsGraphical (0 :: ds).get ↔ IsGraphical ds.get := by
  have hcomp : ds.get = (0 :: ds).get ∘ (Fin.succEmb ds.length) := funext fun i ↦ rfl
  rw [hcomp]
  refine (isGraphical_comp (Fin.succEmb ds.length) fun v hv ↦ ?_).symm
  cases v using Fin.cases with
  | zero => rfl
  | succ i => exact absurd ⟨i, rfl⟩ hv

end DegreeGraph
