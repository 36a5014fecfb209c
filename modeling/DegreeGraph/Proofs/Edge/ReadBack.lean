import DegreeGraph.Proofs.Edge.Exports
import DegreeGraph.Proofs.Edge.Saved
import DegreeGraph.Proofs.Files.Address
import DegreeGraph.Proofs.Table.Written

/-!
# A saved edge list is read back as a table

The file of an edge list between integers is a table of two columns, and each of them is a column of
written integers. If the integers have 64 bits, the reader of degrees gives back the lesser ends
from one column and the greater ends from the other, row by row (`writeEdgeList_read_back`). The two
halves put together again are the edges that were saved, up to their order and that of their ends.
-/

namespace DegreeGraph

open DegreeGraph.Number DegreeGraph.Packed Rows

variable {edges : Datum} {ends : List Ends} {pairs rows : List (ℤ × ℤ)} {path : String}
  {t u : FileTree} {event : Event} {z : ℤ}

/-! ## The text -/

theorem isBareField_writeInt (z : ℤ) : IsBareField (writeInt z).toList := by
  refine ⟨toList_writeInt_ne_nil z, fun c hc ↦ ?_⟩
  have hmargin : isMargin c = false := by
    rcases eq_minus_or_isDigit_of_mem_writeInt hc with rfl | hdigit
    · rfl
    · rw [isMargin, Bool.or_eq_false_iff, beq_eq_false_iff_ne, beq_eq_false_iff_ne]
      constructor
      all_goals
        rintro rfl
        exact absurd hdigit (by decide)
  rw [isPlain, needsQuotes_of_mem_writeInt hc, hmargin]
  rfl

theorem toList_rowText (p : ℤ × ℤ) : (rowText p).toList
    = (writeInt p.1).toList ++ ',' :: ((writeInt p.2).toList ++ ['\r', '\n']) := by
  simp [rowText, writeInt]

/-- The header of an edge list and its rows are lines of two bare fields. -/
theorem toList_rowsText (rows : List (ℤ × ℤ)) :
    (rowsText rows).toList
      = (("source".toList, "target".toList)
        :: rows.map fun p ↦ ((writeInt p.1).toList, (writeInt p.2).toList)).flatMap
          fun p ↦ p.1 ++ ',' :: (p.2 ++ ['\r', '\n']) := by
  rw [rowsText, String.toList_join, List.flatMap_cons, List.flatMap_map, List.flatMap_cons,
    List.flatMap_map, funext toList_rowText]
  rfl

/-- **The file of an edge list is a table of two columns of integers.** -/
theorem ofText_rowsText (rows : List (ℤ × ℤ)) :
    Sheet.ofText (rowsText rows) = .ok ⟨["source", "target"], 0,
      rows.map fun p ↦ [(writeInt p.1).toList, (writeInt p.2).toList]⟩ := by
  have hlines : ∀ p ∈ ("source".toList, "target".toList)
      :: rows.map (fun p ↦ ((writeInt p.1).toList, (writeInt p.2).toList)),
      IsBareField p.1 ∧ IsBareField p.2 := by
    rw [List.forall_mem_cons, List.forall_mem_map]
    exact ⟨⟨⟨by decide, List.all_eq_true.mp (by decide)⟩,
        ⟨by decide, List.all_eq_true.mp (by decide)⟩⟩,
      fun p _ ↦ ⟨isBareField_writeInt p.1, isBareField_writeInt p.2⟩⟩
  obtain ⟨found, hscan, hfields⟩ := exists_scan_lines hlines 0
  have hrows : Rows.ofText (rowsText rows) = ⟨found, none⟩ := by
    rw [← hscan, Rows.ofText, toList_rowsText]
    rfl
  obtain ⟨header, body, rfl, hheader, hbody⟩ := List.map_eq_cons_iff.mp hfields
  rw [List.map_map] at hbody
  have hlength : ∀ row ∈ body, row.fields.length = header.fields.length := by
    intro row hrow
    have hmem := List.mem_map_of_mem (f := Row.fields) hrow
    rw [hbody] at hmem
    obtain ⟨p, -, hp⟩ := List.mem_map.mp hmem
    rw [hheader, ← hp]
    rfl
  rw [Sheet.ofText_eq hrows hlength, hbody, hheader]
  rfl

/-! ## The file -/

/-- A list that was saved is at its path. -/
theorem readFile_of_writeEdgeList
    (h : (writeEdgeList (edgesDatum pairs) path).run t = (.ok event, u)) :
    u.readFile path = .ok (rowsText (sortedPairs pairs)) := by
  obtain ⟨hlines, v, target, -, -, hadmits, hmove⟩ :=
    exists_moveFile_of_run_ok (sortedEnds_edgesDatum pairs) h
  rw [← (listingOf_map_endsOfPair hlines).2]
  exact (FileTree.readFile_of_moveFile (by decide) (by decide) hadmits hmove).1

theorem notMem_of_writeEdgeList (h : (writeEdgeList edges path).run t = (.ok event, u)) :
    '\x00' ∉ path.toList := by
  obtain ⟨ends, v, -, h⟩ := Stepwise.exists_run_of_bind h
  obtain ⟨⟨⟩, w, -, h⟩ := Stepwise.exists_run_of_bind h
  obtain ⟨place, x, hcreate, -⟩ := Stepwise.exists_run_of_bind h
  have hbeside := FileM.notMem_of_run_create hcreate
  rw [besidePath, String.toList_append] at hbeside
  exact fun hzero ↦ hbeside (List.mem_append_left _ hzero)

theorem run_readDegreeColumn (hplain : Address.IsPlain path) (hpacked : Packing.ofPath? path = none)
    (hzero : '\x00' ∉ path.toList) {text : String} (hfile : u.readFile path = .ok text)
    (column : Datum) : (readDegreeColumn path column).run u
      = (degreesIn .file path column text, u) := by
  rw [readDegreeColumn_eq_of_isPlain hplain hpacked, Stepwise.run_bind, FileM.run_read hzero hfile]
  exact FileM.run_ofAnswer _ u

/-! ## There and back -/

theorem degreesIn_rowsText (hpacked : Packing.ofPath? path = none) {name : String} {i : ℕ}
    {side : ℤ × ℤ → ℤ} (hname : Sheet.place? ⟨["source", "target"], 0, []⟩ name = some i)
    (hside : ∀ p : ℤ × ℤ, [(writeInt p.1).toList, (writeInt p.2).toList].getD i []
      = (writeInt (side p)).toList) (hfits : ∀ p ∈ rows, isInt64 (side p)) :
    degreesIn .file path (.text name) (rowsText rows)
      = .ok (rows.map side) := by
  let sheet : Sheet := ⟨["source", "target"], 0,
    rows.map fun p ↦ [(writeInt p.1).toList, (writeInt p.2).toList]⟩
  have hplace : sheet.place? name = some i := hname
  have hcells : sheet.column i = (rows.map side).map fun z ↦ (writeInt z).toList := by
    rw [Sheet.column, List.map_map, List.map_map]
    exact List.map_congr_left fun p _ ↦ hside p
  have hsheet : Sheet.ofFile .file path (rowsText rows) = .ok sheet := by
    rw [Sheet.ofFile, hpacked]
    exact ofText_rowsText rows
  rw [degreesIn, hsheet]
  simp only [bind, Except.bind, Sheet.degrees, hplace]
  exact Sheet.degreesAt_eq_of_writeInt hcells (List.forall_mem_map.mpr hfits) path name

/-- **A saved edge list is read back.** Once edges between integers with 64 bits have been saved at
a plain path that ends like a table, its two columns are the lesser and the greater ends of the
edges in ascending order. Put together again they are the edges, up to their order and that of their
ends; nothing is lost and nothing is read twice. -/
theorem writeEdgeList_read_back (hfits : ∀ p ∈ pairs, isInt64 p.1 ∧ isInt64 p.2)
    (hplain : Address.IsPlain path) (htable : ".csv".toList <:+ path.toList)
    (hwrite : (writeEdgeList (edgesDatum pairs) path).run t = (.ok event, u)) :
    ∃ rows : List (ℤ × ℤ), rows.Perm (pairs.map fun p ↦ (min p.1 p.2, max p.1 p.2))
      ∧ (rows.Pairwise fun p q ↦ toLex p ≤ toLex q)
      ∧ (readDegreeColumn path (.text "source")).run u = (.ok (rows.map Prod.fst), u)
      ∧ (readDegreeColumn path (.text "target")).run u = (.ok (rows.map Prod.snd), u)
      ∧ (unordered ((rows.map Prod.fst).zip (rows.map Prod.snd))).Perm (unordered pairs) := by
  have hpacked := Packing.ofPath?_eq_none_of_csv htable
  have hread := run_readDegreeColumn hplain hpacked (notMem_of_writeEdgeList hwrite)
    (readFile_of_writeEdgeList hwrite)
  have hsorted : ∀ p ∈ sortedPairs pairs, isInt64 p.1 ∧ isInt64 p.2 := by
    simpa only [(perm_sortedPairs pairs).mem_iff, List.forall_mem_map,
      EdgeColumns.isInt64_inOrder] using hfits
  refine ⟨sortedPairs pairs, perm_sortedPairs pairs, pairwise_sortedPairs pairs, ?source, ?target,
    ?edges⟩
  case source =>
    rw [hread, degreesIn_rowsText (i := 0) hpacked rfl (fun _ ↦ rfl) fun p hp ↦ (hsorted p hp).1]
  case target =>
    rw [hread, degreesIn_rowsText (i := 1) hpacked rfl (fun _ ↦ rfl) fun p hp ↦ (hsorted p hp).2]
  case edges =>
    rw [← List.unzip_fst, ← List.unzip_snd, List.zip_unzip]
    exact perm_unordered_sortedPairs pairs

/-- The ends of 64 bits that lie farthest apart are saved and read back. -/
theorem writeEdgeList_read_back_farthest :
    ∃ event u, (writeEdgeList (edgesDatum [(5, 5), (9223372036854775807, -9223372036854775808)])
        "e.csv").run .empty = (.ok event, u) ∧
      ∃ rows : List (ℤ × ℤ), rows.Perm [(5, 5), (-9223372036854775808, 9223372036854775807)] ∧
        (readDegreeColumn "e.csv" (.text "source")).run u = (.ok (rows.map Prod.fst), u) := by
  have hrun : (writeEdgeList (edgesDatum [(5, 5), (9223372036854775807, -9223372036854775808)])
      "e.csv").run .empty = (.ok (writtenEvent 2 "e.csv"), { FileTree.empty with files :=
        [(["work", "e.csv"],
          "source,target\r\n-9223372036854775808,9223372036854775807\r\n5,5\r\n")] }) := rfl
  have hplain : Address.IsPlain "e.csv" := by
    refine Address.isPlain_of_notMem ?_ ?_ ?_
    all_goals decide
  obtain ⟨rows, hperm, -, hsource, -⟩ :=
    writeEdgeList_read_back (by decide) hplain ⟨['e'], rfl⟩ hrun
  exact ⟨_, _, hrun, rows, hperm, hsource⟩

end DegreeGraph
