import DegreeGraph.Sampling.Run
import DegreeGraph.Proofs.Degrees.Sequence
import DegreeGraph.Proofs.Sampling.Pivot
import DegreeGraph.Proofs.Sampling.Search

/-!
# Where a run stands, as a graph

The edges placed so far are a graph, and the demands that are left are what the original ones lack
in it. `Progress.Accounts` is this invariant; it holds whatever the feasibility test is. With it,
the completions of the placed edges to a graph with the original degrees are the graphs with the
residual demands that avoid the placed edges.
-/

namespace DegreeGraph

open Finset

/-! ## Edges between numbers -/

theorem edgeOf_comm (a b : ℕ) : edgeOf a b = edgeOf b a := by
  rw [edgeOf, edgeOf]
  split_ifs <;> grind

theorem edgeOf_of_lt {a b : ℕ} (h : a < b) : edgeOf a b = (a, b) := if_pos h

theorem edgeOf_inj {a b c d : ℕ} : edgeOf a b = edgeOf c d ↔ a = c ∧ b = d ∨ a = d ∧ b = c := by
  rw [edgeOf, edgeOf]
  split_ifs <;> simp only [Prod.mk.injEq] <;> omega

theorem edgeOf_fst_lt_snd {a b : ℕ} (h : a ≠ b) : (edgeOf a b).1 < (edgeOf a b).2 := by
  rw [edgeOf]
  split_ifs <;> simp only <;> omega

theorem edgeOf_snd_lt {a b n : ℕ} (ha : a < n) (hb : b < n) : (edgeOf a b).2 < n := by
  rw [edgeOf]
  split_ifs <;> assumption

/-- The number of edges at a node. -/
def degreeIn (edges : List Edge) (i : ℕ) : ℕ := edges.countP fun e ↦ e.1 = i ∨ e.2 = i

theorem degreeIn_concat (edges : List Edge) {a b : ℕ} (hne : a ≠ b) (i : ℕ) :
    (degreeIn (edges ++ [edgeOf a b]) i : ℤ)
      = degreeIn edges i + ((if i = a then 1 else 0) + if i = b then 1 else 0) := by
  have hcount : [edgeOf a b].countP (fun e ↦ e.1 = i ∨ e.2 = i)
      = (if i = a then 1 else 0) + if i = b then 1 else 0 := by
    rw [List.countP_singleton, edgeOf]
    split_ifs <;> grind
  rw [degreeIn, List.countP_append, hcount]
  push_cast
  rfl

variable {n : ℕ} {edges : List Edge}

/-- Every entry is a pair of nodes below `n`, the smaller one first. -/
def AreEdges (n : ℕ) (edges : List Edge) : Prop := ∀ e ∈ edges, e.1 < e.2 ∧ e.2 < n

instance : Decidable (AreEdges n edges) :=
  inferInstanceAs (Decidable (∀ e ∈ edges, e.1 < e.2 ∧ e.2 < n))

/-- Every edge is an edge at two nodes. -/
theorem sum_degreeIn (h : AreEdges n edges) :
    ∑ i : Fin n, (degreeIn edges i : ℤ) = 2 * edges.length := by
  induction edges using List.reverseRecOn with
  | nil => simp [degreeIn]
  | append_singleton edges e ih =>
    obtain ⟨hlt, hn⟩ := h e (by simp)
    have hsplit (i : Fin n) : (degreeIn (edges ++ [e]) i : ℤ) = degreeIn edges i
        + ((if i = ⟨e.1, hlt.trans hn⟩ then 1 else 0) + if i = ⟨e.2, hn⟩ then 1 else 0) := by
      have hconcat := degreeIn_concat edges hlt.ne i
      rw [edgeOf_of_lt hlt] at hconcat
      simpa only [Fin.ext_iff] using hconcat
    have hone (j : Fin n) : ∑ i : Fin n, (if i = j then (1 : ℤ) else 0) = 1 :=
      Fintype.sum_ite_eq' j fun _ ↦ 1
    rw [sum_congr rfl fun i _ ↦ hsplit i, sum_add_distrib, sum_add_distrib, hone, hone,
      ih fun f hf ↦ h f (List.mem_append_left _ hf), List.length_append, List.length_singleton]
    push_cast
    ring

/-! ## The graph of a list of edges -/

variable {G H : SimpleGraph (Fin n)}

/-- The graph whose edges are listed. -/
def edgeGraph (n : ℕ) (edges : List Edge) : SimpleGraph (Fin n) where
  Adj a b := a ≠ b ∧ edgeOf a b ∈ edges
  symm := ⟨fun a b h ↦ ⟨h.1.symm, edgeOf_comm a b ▸ h.2⟩⟩
  loopless := ⟨fun _ h ↦ h.1 rfl⟩

/-- All listed pairs are edges of a graph, written with the smaller node first. -/
def Contains (G : SimpleGraph (Fin n)) (edges : List Edge) : Prop :=
  ∀ e ∈ edges, ∃ a b : Fin n, a < b ∧ e = (a.val, b.val) ∧ G.Adj a b

theorem contains_iff : Contains G edges ↔ AreEdges n edges ∧ edgeGraph n edges ≤ G := by
  refine ⟨fun h ↦ ⟨fun e he ↦ ?_, fun a b hab ↦ ?_⟩, fun ⟨hedges, hle⟩ e he ↦ ?_⟩
  · obtain ⟨a, b, hlt, rfl, -⟩ := h e he
    exact ⟨hlt, b.isLt⟩
  · obtain ⟨c, d, hlt, heq, hadj⟩ := h _ hab.2
    rw [← edgeOf_of_lt hlt, edgeOf_inj, Fin.val_inj, Fin.val_inj, Fin.val_inj, Fin.val_inj] at heq
    rcases heq with ⟨rfl, rfl⟩ | ⟨rfl, rfl⟩
    · exact hadj
    · exact hadj.symm
  · obtain ⟨hlt, hn⟩ := hedges e he
    refine ⟨⟨e.1, hlt.trans hn⟩, ⟨e.2, hn⟩, hlt, rfl, hle ⟨?_, ?_⟩⟩
    · exact fun heq ↦ hlt.ne (congrArg Fin.val heq)
    · rw [edgeOf_of_lt hlt]
      exact he

theorem nodup_concat {e : Edge} (h : edges.Nodup) (hnew : e ∉ edges) : (edges ++ [e]).Nodup := by
  refine List.nodup_append.mpr ⟨h, List.nodup_singleton e, fun f hf g hg heq ↦ hnew ?_⟩
  rwa [← List.mem_singleton.mp hg, ← heq]

theorem Contains.concat (h : Contains G edges) {a b : Fin n} (hadj : G.Adj a b) :
    Contains G (edges ++ [edgeOf a b]) := by
  intro e he
  rcases List.mem_append.mp he with he | he
  · exact h e he
  rw [List.mem_singleton.mp he]
  rcases lt_or_gt_of_ne hadj.ne with hlt | hgt
  · exact ⟨a, b, hlt, edgeOf_of_lt hlt, hadj⟩
  · exact ⟨b, a, hgt, by rw [edgeOf_comm, edgeOf_of_lt hgt], hadj.symm⟩

theorem Contains.concat_of_mem (h : Contains G edges) {e : Edge} (he : e ∈ edges) :
    Contains G (edges ++ [e]) := by
  intro f hf
  rcases List.mem_append.mp hf with hf | hf
  · exact h f hf
  · exact h f (List.mem_singleton.mp hf ▸ he)

theorem edgeGraph_concat {a b : Fin n} (hne : a ≠ b) :
    edgeGraph n (edges ++ [edgeOf a b]) = edgeGraph n edges ⊔ star a {b} := by
  ext c d
  have hstar : a ∉ ({b} : Finset (Fin n)) := by simpa using hne
  simp only [edgeGraph, SimpleGraph.sup_adj, star_adj hstar, List.mem_append, List.mem_singleton,
    edgeOf_inj, mem_singleton, Fin.val_inj]
  grind

theorem disjoint_edgeGraph_star {a b : Fin n} (hne : a ≠ b) (hnew : edgeOf a b ∉ edges) :
    Disjoint (edgeGraph n edges) (star a {b}) := by
  have hstar : a ∉ ({b} : Finset (Fin n)) := by simpa using hne
  refine SimpleGraph.disjoint_left.mpr fun c d hcd hs ↦ ?_
  simp only [star_adj hstar, mem_singleton] at hs
  rcases hs with ⟨rfl, rfl⟩ | ⟨rfl, rfl⟩
  · exact hnew hcd.2
  · exact hnew (edgeOf_comm c d ▸ hcd.2)

theorem realizes_edgeGraph (hnodup : edges.Nodup) (hedges : AreEdges n edges) :
    Realizes (edgeGraph n edges) fun i ↦ (degreeIn edges i : ℤ) := by
  induction edges using List.reverseRecOn with
  | nil =>
    classical
    refine realizes_iff.mpr fun v ↦ ?_
    have hzero : (edgeGraph n []).degree v = 0 :=
      (SimpleGraph.degree_eq_zero _ v).mpr fun w hadj ↦ List.not_mem_nil hadj.2
    rw [hzero]
    rfl
  | append_singleton edges e ih =>
    obtain ⟨hfirst, -, hnew⟩ := List.nodup_append.mp hnodup
    obtain ⟨hlt, hn⟩ := hedges e (by simp)
    let a : Fin n := ⟨e.1, hlt.trans hn⟩
    let b : Fin n := ⟨e.2, hn⟩
    have hne : a ≠ b := fun heq ↦ hlt.ne (congrArg Fin.val heq)
    have he : e = edgeOf a b := (edgeOf_of_lt hlt).symm
    have hout : edgeOf a b ∉ edges := fun hmem ↦ hnew _ hmem e (by simp) he.symm
    have hstar : a ∉ ({b} : Finset (Fin n)) := by simpa using hne
    have hsum := (ih hfirst fun e he ↦ hedges e (List.mem_append_left _ he)).sup
      (realizes_star hstar) (disjoint_edgeGraph_star hne hout)
    rw [he, edgeGraph_concat hne]
    intro v
    have hdegree := degreeIn_concat edges (fun h ↦ hne (Fin.ext h)) v
    rw [hsum v, Pi.add_apply]
    simp only [hdegree, card_singleton, mem_singleton, Fin.ext_iff, Nat.cast_one]

/-! ## Demands in a list -/

/-- The entries of a list as demands of the first `n` nodes. -/
def demandsIn (n : ℕ) (residual : List ℤ) : Fin n → ℤ := fun i ↦ residual.getD i 0

theorem demandsIn_length (ds : List ℤ) : demandsIn ds.length ds = ds.get := by
  funext i
  rw [demandsIn, List.getD_eq_getElem _ _ i.isLt]
  rfl

theorem isGraphical_demandsIn {residual : List ℤ} (h : residual.length = n) :
    IsGraphical (demandsIn n residual) ↔ IsGraphical residual.get := by
  subst h
  rw [demandsIn_length]

theorem getD_modify_pred (ds : List ℤ) (k i : ℕ) (hi : i < ds.length) :
    (ds.modify k (· - 1)).getD i 0 = ds.getD i 0 - if i = k then 1 else 0 := by
  rw [List.getD_eq_getElem?_getD, List.getElem?_modify, List.getD_eq_getElem?_getD,
    List.getElem?_eq_getElem hi]
  by_cases h : k = i
  · simp [h]
  · simp [h, Ne.symm h]

variable {p : Progress}

theorem length_lowered (p : Progress) (a b : ℕ) :
    (p.lowered a b).length = p.residual.length := by
  rw [Progress.lowered, List.length_modify, List.length_modify]

theorem getD_lowered (p : Progress) (a b i : ℕ) (hi : i < p.residual.length) :
    (p.lowered a b).getD i 0
      = p.residual.getD i 0 - ((if i = a then 1 else 0) + if i = b then 1 else 0) := by
  rw [Progress.lowered, getD_modify_pred _ _ _ (by rwa [List.length_modify]),
    getD_modify_pred _ _ _ hi]
  ring

/-- No edge raises a demand. -/
theorem Progress.getD_commit_le (p : Progress) (a b i : ℕ) :
    (p.commit a b).residual.getD i 0 ≤ p.residual.getD i 0 := by
  rw [commit]
  by_cases hi : i < p.residual.length
  · rw [getD_lowered p a b i hi]
    split_ifs <;> omega
  · rw [List.getD_eq_default _ _ (by rwa [length_lowered, ← not_lt]),
      List.getD_eq_default _ _ (not_lt.mp hi)]

/-- The pivot loses an edge and no other node loses more, so it stays the pivot while it asks for
edges. -/
theorem IsPivot.commit {v j : ℕ} (h : IsPivot p.residual v) (hne : j ≠ v)
    (hopen : 0 < (p.commit v j).residual.getD v 0) : IsPivot (p.commit v j).residual v := by
  refine ⟨hopen, fun i hi ↦ ?_⟩
  have hbefore := hi.trans_le (p.getD_commit_le v j i)
  have hlt : i < p.residual.length := by
    refine not_le.mp fun hle ↦ ?_
    rw [List.getD_eq_default _ _ hle] at hbefore
    exact lt_irrefl 0 hbefore
  have hleast := h.least i hbefore
  by_cases hiv : i = v
  · exact Or.inr ⟨by rw [hiv], hiv.ge⟩
  rw [Progress.commit, getD_lowered p v j v h.lt_length, getD_lowered p v j i hlt, if_pos rfl,
    if_neg hne.symm, if_neg hiv]
  split_ifs <;> omega

theorem demandsIn_lowered (hlen : p.residual.length = n) (a b : Fin n) :
    demandsIn n (p.lowered a b) = served (demandsIn n p.residual) a {b} := by
  funext v
  rw [demandsIn, getD_lowered p a b v (by rw [hlen]; exact v.isLt), served, demandsIn]
  simp only [card_singleton, mem_singleton, Fin.ext_iff, Nat.cast_one]
  ring

/-! ## The account of a run -/

/-- The demands that are left are what the original ones lack in the placed edges. -/
structure Progress.Accounts (degrees : List ℤ) (p : Progress) : Prop where
  length_eq : p.residual.length = degrees.length
  residual_eq : ∀ i < degrees.length, p.residual.getD i 0 = degrees.getD i 0 - degreeIn p.edges i
  nodup : p.edges.Nodup
  edges : AreEdges degrees.length p.edges

theorem accounts_start (degrees : List ℤ) : (Progress.start degrees).Accounts degrees := by
  refine ⟨rfl, fun i _ ↦ ?_, List.nodup_nil, fun e he ↦ absurd he List.not_mem_nil⟩
  simp [Progress.start, degreeIn]

namespace Progress.Accounts

variable {degrees : List ℤ}

theorem commit (h : p.Accounts degrees) {a b : ℕ} (ha : a < degrees.length)
    (hb : b < degrees.length) (hne : a ≠ b) (hnew : edgeOf a b ∉ p.edges) :
    (p.commit a b).Accounts degrees := by
  refine ⟨?_, fun i hi ↦ ?_, ?_, ?_⟩
  · rw [Progress.commit, length_lowered, h.length_eq]
  · have hrest := h.residual_eq i hi
    rw [Progress.commit, getD_lowered p a b i (by rwa [h.length_eq]), degreeIn_concat _ hne, hrest]
    ring
  · exact nodup_concat h.nodup hnew
  · intro e he
    rcases List.mem_append.mp he with he | he
    · exact h.edges e he
    · rw [List.mem_singleton.mp he]
      exact ⟨edgeOf_fst_lt_snd hne, edgeOf_snd_lt ha hb⟩

theorem demandsIn_eq (h : p.Accounts degrees) : demandsIn degrees.length p.residual
    = degrees.get - fun i : Fin degrees.length ↦ (degreeIn p.edges i : ℤ) := by
  funext i
  rw [demandsIn, h.residual_eq i i.isLt, Pi.sub_apply, ← demandsIn_length, demandsIn]

variable {G : SimpleGraph (Fin degrees.length)}

/-- A completion without the placed edges has the residual demands. -/
theorem realizes_sdiff (h : p.Accounts degrees) (hG : Realizes G degrees.get)
    (hcontains : Contains G p.edges) :
    Realizes (G \ edgeGraph degrees.length p.edges) (demandsIn degrees.length p.residual) := by
  rw [h.demandsIn_eq]
  exact hG.sdiff (realizes_edgeGraph h.nodup h.edges) (contains_iff.mp hcontains).2

/-- A graph with the residual demands that avoids the placed edges completes them. -/
theorem exists_completion (h : p.Accounts degrees)
    (hG : Realizes G (demandsIn degrees.length p.residual))
    (hdisj : Disjoint G (edgeGraph degrees.length p.edges)) :
    ∃ G : SimpleGraph (Fin degrees.length), Realizes G degrees.get ∧ Contains G p.edges := by
  refine ⟨G ⊔ edgeGraph degrees.length p.edges, ?_,
    contains_iff.mpr ⟨h.edges, le_sup_right⟩⟩
  have hsum := hG.sup (realizes_edgeGraph h.nodup h.edges) hdisj
  rwa [h.demandsIn_eq, sub_add_cancel] at hsum

end Progress.Accounts

end DegreeGraph
