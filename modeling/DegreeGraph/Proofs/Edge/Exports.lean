import DegreeGraph.Edge.Saved
import DegreeGraph.Proofs.Edge.Ends
import DegreeGraph.Proofs.Stepwise
import DegreeGraph.Store.Materialize

/-!
# Exported edges

Edges between integers go to a store, into columns and into a file, and all three take them from the
same list of pairs in order. So none of them shows in which order the edges were given or which end
came first, in the handles of a store and the numbers of its links as little as in a text
(`exports_eq_of_perm`). Columns take integers with 64 bits and are refused for any others
(`EdgeColumns.ofEdges_ints_eq_ok_iff`).
-/

namespace DegreeGraph

open DegreeGraph.Number

variable {pairs others : List (ℤ × ℤ)} {zs ws : List ℤ} {c : EdgeColumns}

/-! ## Columns of integers -/

namespace ColumnKind

/-- Only integers have been seen. -/
def Seen.IsPlain (seen : Seen) : Prop := seen.truth = false ∧ seen.binary = false

theorem Seen.IsPlain.kind_eq {seen : Seen} (h : seen.IsPlain) :
    seen.kind = if seen.great then unsigned else whole := by
  rw [Seen.kind, h.1, h.2]
  rfl

theorem ofRest_cons_int (seen : Seen) (z : ℤ) (rest : List Datum) :
    ofRest seen (.int z :: rest)
      = if !(isInt64 z || isUInt64 z) || ((seen.withInt z).minus && (seen.withInt z).great) then mixed
        else ofRest (seen.withInt z) rest := rfl

/-- A column of integers is whole exactly if all of them have 64 bits with a sign. -/
theorem ofRest_ints_eq_whole_iff {seen : Seen} (h : seen.IsPlain) :
    ofRest seen (zs.map .int) = whole ↔ seen.great = false ∧ ∀ z ∈ zs, isInt64 z := by
  induction zs generalizing seen with
  | nil =>
    rw [List.map_nil, ofRest, h.kind_eq]
    cases seen.great <;> simp
  | cons z zs ih =>
    have hgreat : (seen.withInt z).great = false ↔ seen.great = false ∧ isInt64 z = true := by
      simp [Seen.withInt]
    rw [List.map_cons, ofRest_cons_int, List.forall_mem_cons, ← and_assoc, ← hgreat]
    split
    · rename_i hrefused
      refine iff_of_false nofun ?_
      rintro ⟨hfits, -⟩
      simp [(hgreat.mp hfits).2, hfits] at hrefused
    · exact ih h

theorem ofRest_ints_ne {seen : Seen} (h : seen.IsPlain) :
    ofRest seen (zs.map .int) ≠ truths ∧ ofRest seen (zs.map .int) ≠ doubles := by
  induction zs generalizing seen with
  | nil =>
    rw [List.map_nil, ofRest, h.kind_eq]
    cases seen.great <;> simp
  | cons z zs ih =>
    rw [List.map_cons, ofRest_cons_int]
    split
    · simp
    · exact ih h

end ColumnKind

theorem forall_isInt64_of_entriesToInts (h : entriesToInts (zs.map .int) = .ok ws) :
    ∀ z ∈ zs, isInt64 z := by
  induction zs generalizing ws with
  | nil => exact List.forall_mem_nil _
  | cons z zs ih =>
    obtain ⟨z', hz, h⟩ := Stepwise.exists_of_bind_eq_ok h
    obtain ⟨zs', hzs, -⟩ := Stepwise.exists_of_bind_eq_ok h
    refine List.forall_mem_cons.mpr ⟨?_, ih hzs⟩
    by_contra hlarge
    rw [entryToInt, toInt64, if_neg hlarge] at hz
    cases hz

/-- A column of integers is taken over exactly if all of them have 64 bits, and nothing is changed. -/
theorem columnToInts_ints_eq_ok_iff :
    columnToInts (zs.map .int) = .ok ws ↔ ws = zs ∧ ∀ z ∈ zs, isInt64 z := by
  have hplain : ColumnKind.Seen.IsPlain {} := ⟨rfl, rfl⟩
  have hwhole : ColumnKind.ofColumn (zs.map .int) = .whole ↔ ∀ z ∈ zs, isInt64 z := by
    rw [ColumnKind.ofColumn, ColumnKind.ofRest_ints_eq_whole_iff hplain]
    exact and_iff_right rfl
  have hne : ColumnKind.ofColumn (zs.map .int) ≠ .truths
      ∧ ColumnKind.ofColumn (zs.map .int) ≠ .doubles := ColumnKind.ofRest_ints_ne hplain
  rw [← hwhole, columnToInts]
  cases hkind : ColumnKind.ofColumn (zs.map .int) with
  | whole =>
    have hread : (zs.map Datum.int).filterMap Datum.toInt? = zs := by
      rw [List.filterMap_map]
      exact List.filterMap_some
    simp only [hread, Except.ok.injEq, and_true]
    exact eq_comm
  | truths => exact absurd hkind hne.1
  | doubles => exact absurd hkind hne.2
  | unsigned => exact iff_of_false nofun (nofun ∘ And.right)
  | mixed =>
    refine iff_of_false ?_ (nofun ∘ And.right)
    intro hok
    -- What is read entry by entry has 64 bits, so the column would be whole.
    obtain ⟨zs', hread, -⟩ := Stepwise.exists_of_bind_eq_ok hok
    cases hkind.symm.trans (hwhole.mpr (forall_isInt64_of_entriesToInts hread))

namespace EdgeColumns

theorem ofEnds_endsOfPair_eq_ok_iff {rows : List (ℤ × ℤ)} :
    ofEnds (rows.map endsOfPair) = .ok c ↔
      c = ⟨rows.map Prod.fst, rows.map Prod.snd⟩ ∧ ∀ p ∈ rows, isInt64 p.1 ∧ isInt64 p.2 := by
  have hfirst : (rows.map endsOfPair).map Prod.fst = (rows.map Prod.fst).map Datum.int := by
    rw [List.map_map, List.map_map]
    rfl
  have hsecond : (rows.map endsOfPair).map Prod.snd = (rows.map Prod.snd).map Datum.int := by
    rw [List.map_map, List.map_map]
    rfl
  rw [ofEnds, hfirst, hsecond]
  constructor
  · intro hok
    obtain ⟨source, hsource, hok⟩ := Stepwise.exists_of_bind_eq_ok hok
    obtain ⟨target, htarget, hok⟩ := Stepwise.exists_of_bind_eq_ok hok
    obtain ⟨rfl, hsources⟩ := columnToInts_ints_eq_ok_iff.mp hsource
    obtain ⟨rfl, htargets⟩ := columnToInts_ints_eq_ok_iff.mp htarget
    refine ⟨(Except.ok.inj hok).symm, fun p hp ↦ ⟨?_, ?_⟩⟩
    · exact hsources p.1 (List.mem_map_of_mem hp)
    · exact htargets p.2 (List.mem_map_of_mem hp)
  · rintro ⟨rfl, hfits⟩
    have hsource : columnToInts ((rows.map Prod.fst).map Datum.int) = .ok (rows.map Prod.fst) :=
      columnToInts_ints_eq_ok_iff.mpr ⟨rfl, List.forall_mem_map.mpr fun p hp ↦ (hfits p hp).1⟩
    have htarget : columnToInts ((rows.map Prod.snd).map Datum.int) = .ok (rows.map Prod.snd) :=
      columnToInts_ints_eq_ok_iff.mpr ⟨rfl, List.forall_mem_map.mpr fun p hp ↦ (hfits p hp).2⟩
    rw [hsource, htarget]
    rfl

/-- Both entries of a pair have 64 bits exactly if they have them in order. -/
theorem isInt64_inOrder (p : ℤ × ℤ) :
    (isInt64 (inOrder p).1 ∧ isInt64 (inOrder p).2) ↔ (isInt64 p.1 ∧ isInt64 p.2) := by
  rcases inOrder_eq_or_eq_swap p with hsame | hswap
  · rw [hsame]
  · rw [hswap]
    exact and_comm

theorem ofEdges_ints_eq_ok_iff : ofEdges (edgesDatum pairs) = .ok c ↔
    c = ⟨(sortedPairs pairs).map Prod.fst, (sortedPairs pairs).map Prod.snd⟩
      ∧ ∀ p ∈ pairs, isInt64 p.1 ∧ isInt64 p.2 := by
  have hfits : (∀ p ∈ sortedPairs pairs, isInt64 p.1 ∧ isInt64 p.2)
      ↔ ∀ p ∈ pairs, isInt64 p.1 ∧ isInt64 p.2 := by
    simp only [(perm_sortedPairs pairs).mem_iff, List.forall_mem_map, isInt64_inOrder]
  rw [← hfits, ← ofEnds_endsOfPair_eq_ok_iff, ofEdges, sortedEnds_edgesDatum]
  rfl

end EdgeColumns

/-! ## Exports -/

theorem writeEdgeListAt_congr {edges edges' : Datum} (hends : sortedEnds edges = sortedEnds edges')
    (path : Datum) : writeEdgeListAt edges path = writeEdgeListAt edges' path := by
  have hlist : writeEdgeList edges = writeEdgeList edges' := by
    funext path
    unfold writeEdgeList
    rw [hends]
  unfold writeEdgeListAt
  rw [hlist, hends]

/-- **Exports depend only on the unordered edges.** Edges between integers that are the same up to
their order and that of their ends make the same changes to a store, the same columns and the same
files, or are refused for the same reason. The rows of the columns are the edges, each with the lesser
end first, in lexicographic order; there are columns exactly if all ends have 64 bits. -/
theorem exports_eq_of_perm (h : (unordered pairs).Perm (unordered others)) :
    (∀ (layout : Layout) (count : Datum) (s : Store),
      (Store.materialize layout (edgesDatum pairs) count).run s
        = (Store.materialize layout (edgesDatum others) count).run s)
    ∧ EdgeColumns.ofEdges (edgesDatum pairs) = EdgeColumns.ofEdges (edgesDatum others)
    ∧ (∀ (path : Datum) (tree : FileTree),
      (writeEdgeListAt (edgesDatum pairs) path).run tree
        = (writeEdgeListAt (edgesDatum others) path).run tree)
    ∧ ∃ rows : List (ℤ × ℤ), rows.Perm (pairs.map fun p ↦ (min p.1 p.2, max p.1 p.2))
      ∧ (rows.Pairwise fun p q ↦ toLex p ≤ toLex q) ∧ (∀ p ∈ rows, p.1 ≤ p.2)
      ∧ sortedEnds (edgesDatum pairs) = .ok (rows.map fun p ↦ (.int p.1, .int p.2))
      ∧ ((∃ c, EdgeColumns.ofEdges (edgesDatum pairs) = .ok c) ↔
        ∀ p ∈ pairs, isInt64 p.1 ∧ isInt64 p.2)
      ∧ ∀ c, EdgeColumns.ofEdges (edgesDatum pairs) = .ok c →
        c.source = rows.map Prod.fst ∧ c.target = rows.map Prod.snd := by
  have hends : sortedEnds (edgesDatum pairs) = sortedEnds (edgesDatum others) := by
    rw [sortedEnds_edgesDatum, sortedEnds_edgesDatum, sortedPairs_eq_of_perm h]
  refine ⟨fun layout count s ↦ ?store, ?columns, fun path tree ↦ ?files, sortedPairs pairs,
    perm_sortedPairs pairs, pairwise_sortedPairs pairs, fun p ↦ fst_le_snd_of_mem_sortedPairs,
    sortedEnds_edgesDatum pairs, ?fits, fun c hc ↦ ?rows⟩
  case store => rw [Store.materialize, Store.materialize, hends]
  case columns => rw [EdgeColumns.ofEdges, EdgeColumns.ofEdges, hends]
  case files => rw [writeEdgeListAt_congr hends path]
  case fits =>
    constructor
    · rintro ⟨c, hc⟩
      exact (EdgeColumns.ofEdges_ints_eq_ok_iff.mp hc).2
    · intro hfits
      exact ⟨_, EdgeColumns.ofEdges_ints_eq_ok_iff.mpr ⟨rfl, hfits⟩⟩
  case rows =>
    obtain ⟨rfl, -⟩ := EdgeColumns.ofEdges_ints_eq_ok_iff.mp hc
    exact ⟨rfl, rfl⟩

/-- A path of two edges, listed from either end, goes to an empty store, into columns and into a
file. -/
theorem exports_eq_of_perm_path :
    let path : Datum := edgesDatum [(1, 0), (2, 1)]
    let turned : Datum := edgesDatum [(1, 2), (0, 1)]
    (unordered [(1, 0), (2, 1)]).Perm (unordered [(1, 2), (0, 1)])
    ∧ (∃ s : Store, s.contents.links.map (fun l ↦ (l.low, l.high)) = [(0, 1), (1, 2)]
      ∧ (Store.materialize {} path .null).run {} = (.ok 2, s)
      ∧ (Store.materialize {} turned .null).run {} = (.ok 2, s))
    ∧ EdgeColumns.ofEdges path = .ok ⟨[0, 1], [1, 2]⟩
    ∧ EdgeColumns.ofEdges turned = .ok ⟨[0, 1], [1, 2]⟩
    ∧ ∃ (event : Event) (u : FileTree),
      u.textAt? ["work", "e.csv"] = some "source,target\r\n0,1\r\n1,2\r\n"
      ∧ (writeEdgeListAt path (.text "e.csv")).run .empty = (.ok event, u)
      ∧ (writeEdgeListAt turned (.text "e.csv")).run .empty = (.ok event, u) := by
  have h : (unordered [(1, 0), (2, 1)]).Perm (unordered [(1, 2), (0, 1)]) := by decide
  obtain ⟨hstore, hcolumns, hfiles, -⟩ := exports_eq_of_perm h
  have hmade : EdgeColumns.ofEdges (edgesDatum [(1, 0), (2, 1)]) = .ok ⟨[0, 1], [1, 2]⟩ := rfl
  have hsaved : (writeEdgeListAt (edgesDatum [(1, 0), (2, 1)]) (.text "e.csv")).run .empty
      = (.ok (writtenEvent 2 "e.csv"),
        FileTree.empty.put ["work", "e.csv"] "source,target\r\n0,1\r\n1,2\r\n") := rfl
  intro path turned
  refine ⟨h, ⟨_, ?links, rfl, (hstore {} .null {}).symm⟩, hmade, hcolumns.symm.trans hmade,
    _, _, rfl, hsaved, (hfiles (.text "e.csv") .empty).symm.trans hsaved⟩
  case links => rfl

end DegreeGraph
