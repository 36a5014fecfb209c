import DegreeGraph.Proofs.Edge.Exports
import DegreeGraph.Proofs.Edge.Network
import DegreeGraph.Proofs.Edge.Printed
import DegreeGraph.Proofs.Store.Numbered

/-!
# One graph in all exports

The edges of a realization go out as a network, into a store and into columns, each of which has its
own way to nodes: a network counts them, a store makes them under the texts of their numbers, and
columns only know those that are ends. All three show the same graph
(`Realization.IsAnswer.exports_show_one_graph`), because none of them finds an edge twice, and
whatever order the edges come in, they are in ascending order afterwards or stay a graph without
order.
-/

namespace DegreeGraph

open DegreeGraph.Number

universe u

variable {config : Config} {sequence : Datum} {r : Realization} {degrees : List ℤ} {n : ℕ}
  {edges listed : List Edge}

/-! ## Answers -/

/-- The sampler has answered a sequence with a realization, with draws of any kind. -/
inductive Realization.IsAnswer (config : Config) (sequence : Datum) (r : Realization) : Prop
  | drawn {σ : Type u} (source : Source σ) (state : σ) :
    (realizeFrom .builtIn config source state sequence).answer = .ok r → IsAnswer config sequence r
  | started (draws : Draws) :
    (realize .builtIn config draws sequence).answer = .ok r → IsAnswer config sequence r

/-- Only the names of the tests that are always there lead to a test. -/
theorem Config.HasBuiltInTest.of_resolve {test : Feasibility}
    (h : Registry.builtIn.resolve config.test = .ok test) : config.HasBuiltInTest := by
  cases htest : config.test with
  | text s =>
    by_contra hother
    rw [HasBuiltInTest, htest, Datum.text.injEq, Datum.text.injEq, not_or] at hother
    have hnone : Registry.builtIn.lookup s = none := by
      simp [Registry.builtIn, List.lookup_cons, beq_false_of_ne hother.1, beq_false_of_ne hother.2]
    simp only [htest, Registry.resolve, hnone] at h
    cases h
  | _ =>
    rw [htest] at h
    cases h

/-- There is no answer without a test. -/
theorem Config.HasBuiltInTest.of_answer {sampler : (List ℤ → Bool) → List ℤ → Sampling}
    (h : (realizeBy .builtIn config sampler sequence).answer = .ok r) : config.HasBuiltInTest := by
  rw [realizeBy] at h
  split at h
  · cases h
  · split at h
    · cases h
    · rename_i hresolve
      exact .of_resolve hresolve

theorem Realization.IsAnswer.exists_meets (h : IsAnswer.{u} config sequence r) :
    ∃ degrees, degreesOf sequence = .ok degrees ∧ r.Meets degrees := by
  cases h with
  | drawn source state hr => exact meets_of_realizeFrom (.of_answer hr) hr
  | started draws hr =>
    refine meets_of_realize ?_ hr
    rw [realize] at hr
    split at hr
    · cases hr
    · exact .of_answer hr

/-! ## Edges as pairs of integers -/

/-- Edges between numbered nodes as pairs of integers. -/
def intPairs (edges : List Edge) : List (ℤ × ℤ) := edges.map fun e ↦ ((e.1 : ℤ), (e.2 : ℤ))

theorem map_endsOfPair_intPairs (edges : List Edge) :
    (intPairs edges).map endsOfPair = edges.map endsOfEdge := by
  rw [intPairs, List.map_map]
  rfl

theorem incident_intPairs (edges : List Edge) (i : ℕ) :
    incident (intPairs edges) i = degreeIn edges i := by
  rw [incident, unordered, intPairs, List.map_map, List.countP_map, degreeIn]
  refine List.countP_congr fun e _ ↦ ?_
  simp only [Function.comp_apply, decide_eq_true_iff, Sym2.mem_iff, Nat.cast_inj]
  tauto

theorem map_inOrder_intPairs (hedges : AreEdges n edges) :
    (intPairs edges).map inOrder = intPairs edges := by
  refine List.map_congr_left (List.forall_mem_map.mpr fun e he ↦ ?_) |>.trans (List.map_id _)
  have hle : (e.1 : ℤ) ≤ e.2 := by exact_mod_cast (hedges e he).1.le
  exact Prod.ext (min_eq_left hle) (max_eq_right hle)

theorem areSimple_intPairs (hedges : AreEdges n edges) (hnodup : edges.Nodup) :
    AreSimple n (intPairs edges) := by
  rw [areSimple_iff, map_inOrder_intPairs hedges]
  refine ⟨List.forall_mem_map.mpr fun e he ↦ ?_, hnodup.map fun e f heq ↦ ?_⟩
  · obtain ⟨hlt, hn⟩ := hedges e he
    simp only [IsEdgeBelow, IsNodeBelow]
    omega
  · simpa [Prod.ext_iff] using heq

/-- All listings of edges are sorted to the edges in ascending order. -/
theorem sortedPairs_intPairs (hedges : AreEdges n edges)
    (hsorted : edges.Pairwise (toLex · < toLex ·)) (hperm : listed.Perm edges) :
    sortedPairs (intPairs listed) = intPairs edges := by
  have hlisted : AreEdges n listed := fun e he ↦ hedges e (hperm.mem_iff.mp he)
  rw [sortedPairs, map_inOrder_intPairs hlisted]
  refine (eq_sortedBy pairAtMost_total pairAtMost_trans pairAtMost_antisymm ?_ ?_).symm
  · exact (hperm.map _).symm
  · refine List.pairwise_map.mpr (hsorted.imp fun {e f} hlt ↦ decide_eq_true ?_)
    rw [Prod.Lex.toLex_lt_toLex] at hlt
    rw [Prod.Lex.toLex_le_toLex, Nat.cast_lt, Nat.cast_inj, Nat.cast_le]
    exact hlt.imp_right (And.imp_right le_of_lt)

/-- The columns of edges between nodes with 64 bits show them in ascending order. -/
theorem exists_columns (hedges : AreEdges n edges) (hsorted : edges.Pairwise (toLex · < toLex ·))
    (hperm : listed.Perm edges) (hn : n < 2 ^ 63) :
    ∃ c, EdgeColumns.ofEdges (edgesDatum (intPairs listed)) = .ok c ∧ c.rows = intPairs edges := by
  refine ⟨_, EdgeColumns.ofEdges_ints_eq_ok_iff.mpr ⟨rfl, ?_⟩, ?_⟩
  · refine List.forall_mem_map.mpr fun e he ↦ ?_
    obtain ⟨hlt, hlast⟩ := hedges e (hperm.mem_iff.mp he)
    have hbound : (twoTo 63 : ℤ) = 2 ^ 63 := rfl
    simp only [isInt64, hbound, Bool.and_eq_true, decide_eq_true_iff]
    omega
  · rw [sortedPairs_intPairs hedges hsorted hperm]
    exact (List.zip_map' ..).trans (List.map_id _)

/-! ## Exports -/

theorem map_ends_ofPairs (n : ℕ) (edges : List Edge) :
    (Network.ofPairs n (intPairs edges)).links.map Network.Link.ends = edges.map endsOfEdge := by
  rw [← map_endsOfPair_intPairs, Network.ofPairs, List.map_map]
  rfl

/-- A network and a store, the latter in its simple view, show the edges of a realization, listed in
some order, as a graph with given degrees, and so do columns of integers with 64 bits. The store takes
numbers that can be written, which all numbers are that fit an index. -/
structure Realization.IsShownBy (r : Realization) (degrees : List ℤ) (listed : List Edge)
    (g : Network) (t : Store) (view : SimpleView) : Prop where
  network : Network.ofEdges (edgesDatum (intPairs listed)) (.int degrees.length) = .ok g
  nodes_eq : g.nodes = (List.range degrees.length).map fun i : ℕ ↦ .int i
  ends_eq : g.links.map Network.Link.ends = listed.map endsOfEdge
  degree_eq : ∀ i : Fin degrees.length, (g.degree (.int (i : ℕ)) : ℤ) = degrees.get i
  store : degrees.length ≤ 10 ^ digitLimit →
    (Store.materialize ({ isolatedNodes := .bool true } : Config).layout
      (edgesDatum (intPairs listed)) (.int degrees.length)).run {} = (.ok listed.length, t)
  found : ∀ i < degrees.length,
    (Store.find (.text "Node") (.text (toString i)) (.text "name")).run t = (.ok (some i), t)
  viewed : Action.view.perform.run t = (.ok (.view view), t)
  viewed_nodes : view.nodes = (List.range degrees.length).map fun i ↦
    ⟨i, [("label", .text "Node"), ("name", .text (toString i))]⟩
  same_nodes : view.nodes.map (fun v ↦ .int v.handle) = g.nodes
  same_edges : (view.edges.map fun e ↦ (.int e.low, .int e.high)).Perm
    (g.links.map Network.Link.ends)
  columns : degrees.length < 2 ^ 63 → ∃ c,
    EdgeColumns.ofEdges (edgesDatum (intPairs listed)) = .ok c ∧ c.rows = intPairs r.edges
  ascending : r.edges.Pairwise (toLex · < toLex ·)

theorem Realization.Meets.exists_isShownBy (hmeets : r.Meets degrees)
    (hperm : listed.Perm r.edges) : ∃ g t view, r.IsShownBy degrees listed g t view := by
  have hsorted := Realization.pairwise_edges hmeets.nodup
  have hlisted : AreEdges degrees.length listed := fun e he ↦ hmeets.edges e (hperm.mem_iff.mp he)
  have hnodup : listed.Nodup := hperm.nodup_iff.mpr hmeets.nodup
  have hsimple := areSimple_intPairs hlisted hnodup
  have hends : sortedEnds (edgesDatum (intPairs listed)) = .ok (r.edges.map endsOfEdge) := by
    rw [sortedEnds_edgesDatum, sortedPairs_intPairs hmeets.edges hsorted hperm,
      map_endsOfPair_intPairs]
  have hview := SimpleView.ofContents_numbered degrees.length hsorted
  refine ⟨Network.ofPairs degrees.length (intPairs listed),
    Store.numbered false degrees.length r.edges,
    SimpleView.ofContents (numberedContents degrees.length r.edges),
    Network.ofEdges_of_areSimple hsimple, rfl, map_ends_ofPairs _ listed, fun i ↦ ?degree,
    fun hbound ↦ ?store, fun i hi ↦ ?found, rfl, ?viewed, ?nodes, ?edges,
    exists_columns hmeets.edges hsorted hperm, hsorted⟩
  case degree =>
    have hloops : ∀ p ∈ intPairs listed, p.1 ≠ p.2 := fun p hp ↦
      ((areSimple_iff.mp hsimple).1 p hp).1
    rw [Network.degree_ofPairs hloops, incident_intPairs, degreeIn, hperm.countP_eq]
    exact hmeets.degree_eq i
  case store =>
    rw [hperm.length_eq]
    exact Store.materialize_new hends hbound hmeets.edges hmeets.nodup
  case found =>
    exact Store.find_run_eq_ok_iff.mpr
      ⟨numberKey i, rfl, (find?_numberedContents _ i r.edges).trans (if_pos hi)⟩
  case viewed =>
    rw [hview]
    rfl
  case nodes =>
    rw [hview, List.map_map]
    rfl
  case edges =>
    rw [hview, map_ends_ofPairs, List.map_map]
    exact (hperm.map endsOfEdge).symm

/-- **All exports of a generated graph show the same graph.** However its edges are listed, the
network has the numbers below the length of the sequence as its nodes, in ascending order, and the
degrees of the sequence. A new store that takes the edges and all numbers gives each number itself
as handle, under its own text, and its simple view has the nodes and the edges of the network. The
rows of the columns are the edges, each once, in ascending order. -/
theorem Realization.IsAnswer.exports_show_one_graph (hr : IsAnswer.{u} config sequence r) :
    ∃ degrees, degreesOf sequence = .ok degrees ∧ ∀ listed : List Edge, listed.Perm r.edges →
      ∃ (g : Network) (t : Store) (view : SimpleView), r.IsShownBy degrees listed g t view := by
  obtain ⟨degrees, hdegrees, hmeets⟩ := hr.exists_meets
  exact ⟨degrees, hdegrees, fun _ hperm ↦ hmeets.exists_isShownBy hperm⟩

/-- Two nodes of three are joined, and the third one is shown as well. -/
theorem Realization.IsAnswer.exports_show_one_graph_pair :
    ∃ r : Realization, IsAnswer.{0} {} (sequenceDatum [1, 0, 1]) r
      ∧ ∃ g t view, r.IsShownBy [1, 0, 1] r.edges g t view := by
  have hok : (realizeFrom .builtIn {} (scriptSource [0]) 0 (sequenceDatum [1, 0, 1])).answer.toBool
      = true := by decide +kernel
  obtain ⟨r, hr⟩ : ∃ r, (realizeFrom .builtIn {} (scriptSource [0]) 0
      (sequenceDatum [1, 0, 1])).answer = .ok r := by
    cases h : (realizeFrom .builtIn {} (scriptSource [0]) 0 (sequenceDatum [1, 0, 1])).answer with
    | error fault =>
      rw [h] at hok
      cases hok
    | ok r => exact ⟨r, rfl⟩
  have hanswer : IsAnswer.{0} {} (sequenceDatum [1, 0, 1]) r := .drawn (scriptSource [0]) 0 hr
  obtain ⟨degrees, hdegrees, hshown⟩ := hanswer.exports_show_one_graph
  obtain rfl := Except.ok.inj ((degreesOf_ints [1, 0, 1]).symm.trans hdegrees)
  exact ⟨r, hanswer, hshown r.edges (List.Perm.refl _)⟩

end DegreeGraph
