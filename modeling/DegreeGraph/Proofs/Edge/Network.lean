import DegreeGraph.Edge.Network
import DegreeGraph.Proofs.Edge.Realized

/-!
# The network of a simple graph

Edges between numbered nodes make no new nodes, and those of a simple graph are all new when they
come. So the network over the numbered nodes has just these nodes and one link for each edge, in the
order in which they were given (`Network.ofEdges_of_areSimple`), and the ends of links at a node are
as many as the edges that it lies in (`Network.degree_ofPairs`).
-/

namespace DegreeGraph

variable {n : ℕ} {pairs rest : List (ℤ × ℤ)} {p q : ℤ × ℤ} {z : ℤ}

namespace Network

/-- The network of pairs over numbered nodes. -/
def ofPairs (n : ℕ) (pairs : List (ℤ × ℤ)) : Network :=
  ⟨(List.range n).map fun i : ℕ ↦ .int i, pairs.map fun p ↦ ⟨endsOfPair p, none⟩⟩

theorem isSome_placeOf?_ofPairs (hz : IsNodeBelow n z) :
    ((ofPairs n pairs).placeOf? (.int z)).isSome = true := by
  obtain ⟨hpos, hlt⟩ := hz
  rw [placeOf?, List.findIdx?_isSome, List.any_eq_true]
  refine ⟨.int (z.toNat : ℤ), List.mem_map_of_mem (List.mem_range.mpr (by omega)), ?_⟩
  rw [Int.toNat_of_nonneg hpos, Datum.same_int]
  exact decide_eq_true rfl

theorem addNode_ofPairs (hz : IsNodeBelow n z) :
    (ofPairs n pairs).addNode (.int z) = .ok (ofPairs n pairs) :=
  if_pos (isSome_placeOf?_ofPairs hz)

theorem joins_endsOfPair_iff (weight : Option Datum) :
    (⟨endsOfPair p, weight⟩ : Link).joins (.int q.1) (.int q.2) = true
      ↔ s(p.1, p.2) = s(q.1, q.2) := by
  simp only [Link.joins, endsOfPair, Datum.same_int, Bool.or_eq_true, Bool.and_eq_true,
    decide_eq_true_iff, Sym2.eq_iff]

/-- An edge between numbered nodes that are not linked is one more link. -/
theorem addEdge_ofPairs (hp : IsEdgeBelow n p) (hnew : s(p.1, p.2) ∉ unordered pairs) :
    (ofPairs n pairs).addEdge (edgeDatum p.1 p.2) = .ok (ofPairs n (pairs ++ [p])) := by
  have hunlinked : ¬((ofPairs n pairs).links.any (·.joins (.int p.1) (.int p.2))) = true := by
    rw [List.any_eq_true]
    rintro ⟨l, hl, hjoins⟩
    obtain ⟨q, hq, rfl⟩ := List.mem_map.mp hl
    exact hnew (List.mem_map.mpr ⟨q, hq, (joins_endsOfPair_iff none).mp hjoins⟩)
  change (ofPairs n pairs).link (.int p.1) (.int p.2) none = _
  simp only [link, addNode_ofPairs hp.2.1, addNode_ofPairs hp.2.2, bind, Except.bind, pure,
    Except.pure, if_neg hunlinked]
  simp only [ofPairs, List.map_append, List.map_singleton, endsOfPair]

theorem addEdges_ofPairs (hrest : ∀ p ∈ rest, IsEdgeBelow n p)
    (hnodup : (unordered (pairs ++ rest)).Nodup) :
    (ofPairs n pairs).addEdges (rest.map fun p ↦ edgeDatum p.1 p.2)
      = .ok (ofPairs n (pairs ++ rest)) := by
  induction rest generalizing pairs with
  | nil => rw [List.append_nil, List.map_nil, addEdges]
  | cons p rest ih =>
    have hnew : s(p.1, p.2) ∉ unordered pairs := by
      rw [unordered, List.map_append, List.map_cons] at hnodup
      exact fun hmem ↦ (List.nodup_append.mp hnodup).2.2 _ hmem _ List.mem_cons_self rfl
    obtain ⟨hp, hrest⟩ := List.forall_mem_cons.mp hrest
    rw [List.append_cons] at hnodup ⊢
    rw [List.map_cons, addEdges, addEdge_ofPairs hp hnew]
    exact ih hrest hnodup

/-- **The network of a simple graph has its nodes and its edges.** -/
theorem ofEdges_of_areSimple (h : AreSimple n pairs) :
    ofEdges (edgesDatum pairs) (.int n) = .ok (ofPairs n pairs) := by
  change (ofPairs n []).addEdges _ = .ok (ofPairs n ([] ++ pairs))
  exact addEdges_ofPairs (areSimple_iff.mp h).1 h.nodup

/-- The ends of links at a node are as many as the edges that it lies in. -/
theorem degree_ofPairs (hedges : ∀ p ∈ pairs, p.1 ≠ p.2) (z : ℤ) :
    (ofPairs n pairs).degree (.int z) = incident pairs z := by
  induction pairs with
  | nil => rfl
  | cons p pairs ih =>
    obtain ⟨hne, hrest⟩ := List.forall_mem_cons.mp hedges
    have hlink : (if (Datum.int p.1).same (.int z) then 1 else 0)
        + (if (Datum.int p.2).same (.int z) then 1 else 0) = if z ∈ s(p.1, p.2) then 1 else 0 := by
      simp only [Datum.same_int, decide_eq_true_iff, Sym2.mem_iff]
      split_ifs <;> omega
    rw [incident_cons, ← ih hrest, ← hlink, Nat.add_comm]
    rfl

end Network

end DegreeGraph
