import DegreeGraph.Edge.Saved
import DegreeGraph.Proofs.Edge.Ends
import DegreeGraph.Proofs.Files.Tree
import DegreeGraph.Proofs.Number.Decimal

/-!
# Saving an edge list is atomic

Saving an edge list takes five steps, each of which may fail: the edges are sorted, the folders on
the way are made, the file beside the destination is opened, its lines are written one by one, and
then it is moved to the destination. `run_writeEdgeList_cases` goes through the last four in order.
Making folders touches no file. What fails from then on has touched only the file beside the
destination, which may hold some of the lines (`run_appendLines`). So a reader finds either what was
there before or the whole of the new list (`writeEdgeList_atomic`).

The fields of integers hold nothing that has to be quoted, so the lines of a list are its rows as
they stand (`listingOf_map_endsOfPair`). An integer has a field unless its digits are too many.
-/

namespace DegreeGraph

open DegreeGraph.Number

variable {edges : Datum} {ends : List Ends} {path : String} {t u : FileTree} {z : ℤ} {c : Char}
  {rows : List (ℤ × ℤ)} {p : ℤ × ℤ}

/-! ## Rows -/

/-- A pair of integers as a row. -/
def rowText (p : ℤ × ℤ) : String := toString p.1 ++ "," ++ toString p.2 ++ "\r\n"

/-- Pairs of integers as the rows of a file, below a header. -/
def rowsText (rows : List (ℤ × ℤ)) : String := String.join ("source,target\r\n" :: rows.map rowText)

/-- Both integers of a pair can be written. -/
def IsWritablePair (p : ℤ × ℤ) : Prop := isWritable p.1 ∧ isWritable p.2

theorem needsQuotes_of_mem_writeInt (hc : c ∈ (writeInt z).toList) : needsQuotes c = false := by
  rcases eq_minus_or_isDigit_of_mem_writeInt hc with rfl | hdigit
  · rfl
  · rw [needsQuotes, Bool.eq_false_iff]
    intro hquotes
    simp only [Bool.or_eq_true, beq_iff_eq] at hquotes
    rcases hquotes with ((rfl | rfl) | rfl) | rfl
    all_goals exact absurd hdigit (by decide)

theorem writeField_writeInt (z : ℤ) : writeField (writeInt z).toList = (writeInt z).toList := by
  rw [writeField, if_neg]
  rw [Bool.not_eq_true, List.any_eq_false]
  exact fun c hc ↦ Bool.eq_false_iff.mp (needsQuotes_of_mem_writeInt hc)

theorem fieldText_int (z : ℤ) :
    fieldText (.int z) = if isWritable z then .ok (writeInt z) else .error (.tooManyDigits none) :=
  rfl

theorem writeLine_writeInt (p : ℤ × ℤ) :
    String.ofList (writeLine (writeInt p.1) (writeInt p.2)) = rowText p := by
  rw [writeLine, writeField_writeInt, writeField_writeInt, ← String.toList_inj, String.toList_ofList]
  simp [rowText, writeInt]

theorem edgeLine_endsOfPair (h : IsWritablePair p) : edgeLine (endsOfPair p) = .ok (rowText p) := by
  rw [edgeLine, endsOfPair, fieldText_int, if_pos h.1, fieldText_int, if_pos h.2,
    ← writeLine_writeInt]
  rfl

theorem isWritablePair_of_edgeLine {line : String} (h : edgeLine (endsOfPair p) = .ok line) :
    IsWritablePair p := by
  obtain ⟨first, hfirst, h⟩ := Stepwise.exists_of_bind_eq_ok h
  obtain ⟨second, hsecond, -⟩ := Stepwise.exists_of_bind_eq_ok h
  rw [endsOfPair, fieldText_int] at hfirst hsecond
  split_ifs at hfirst hsecond with hone htwo
  exact ⟨hone, htwo⟩

/-! ## Lines -/

/-- The lines of edges up to the first that has none, and what is wrong with that one. -/
def linesOf : List Ends → String × Except Fault Unit
  | [] => ("", .ok ())
  | ends :: rest => match edgeLine ends with
    | .ok line => (line ++ (linesOf rest).1, (linesOf rest).2)
    | .error fault => ("", .error fault)

/-- The text of the file of a list of edges. -/
def listingOf (ends : List Ends) : String := listingHeader ++ (linesOf ends).1

/-- **Edges that all have lines are the rows of a file.** -/
theorem listingOf_map_endsOfPair (h : (linesOf (rows.map endsOfPair)).2 = .ok ()) :
    (∀ p ∈ rows, IsWritablePair p) ∧ listingOf (rows.map endsOfPair) = rowsText rows := by
  have hheader : listingHeader = "source,target\r\n" := by decide
  suffices hlines : (∀ p ∈ rows, IsWritablePair p)
      ∧ (linesOf (rows.map endsOfPair)).1 = String.join (rows.map rowText) by
    rw [listingOf, hlines.2, rowsText, String.join_cons, hheader]
    exact ⟨hlines.1, rfl⟩
  induction rows with
  | nil => exact ⟨fun p hp ↦ absurd hp List.not_mem_nil, rfl⟩
  | cons p rows ih =>
    rw [List.map_cons, linesOf] at h ⊢
    cases hline : edgeLine (endsOfPair p) with
    | error fault =>
      rw [hline] at h
      cases h
    | ok line =>
      rw [hline] at h
      obtain ⟨hwritable, hrest⟩ := ih h
      have hp := isWritablePair_of_edgeLine hline
      rw [edgeLine_endsOfPair hp] at hline
      cases hline
      rw [List.map_cons, String.join_cons, ← hrest]
      exact ⟨List.forall_mem_cons.mpr ⟨hp, hwritable⟩, rfl⟩

/-! ## Steps -/

/-- **Lines that are added stand behind the text of a file**, those before the first that cannot be
written included. -/
theorem run_appendLines (ends : List Ends) (t : FileTree) (place : Place) (text : String) :
    (appendLines place ends).run (t.put place text)
      = ((linesOf ends).2, t.put place (text ++ (linesOf ends).1)) := by
  induction ends generalizing text with
  | nil => rw [linesOf, String.append_empty]; rfl
  | cons pair rest ih =>
    rw [appendLines, Stepwise.run_bind, FileM.run_ofAnswer, linesOf]
    cases edgeLine pair with
    | error fault => simp only [String.append_empty]
    | ok line =>
      simp only
      rw [Stepwise.run_bind, FileM.run_append, ← String.append_assoc]
      exact ih (text ++ line)

/-- **Where a write may stop.** The folders come first, then the file beside the destination is
opened and filled line by line, and then it is moved. -/
theorem run_writeEdgeList_cases (hends : sortedEnds edges = .ok ends) (path : String)
    (t : FileTree) : ∃ u, u.work = t.work ∧ u.files = t.files ∧
      ((∃ fault, (writeEdgeList edges path).run t = (.error fault, u)) ∨
        ∃ target, u.Admits (besidePath path) target ∧
          ((∃ fault text, (writeEdgeList edges path).run t
              = (.error fault, u.put target.place text)) ∨
            (linesOf ends).2 = .ok () ∧ ∃ v,
              (u.put target.place (listingOf ends)).moveFile (besidePath path) path = .ok v ∧
                (writeEdgeList edges path).run t = (.ok (writtenEvent ends.length path), v))) := by
  obtain ⟨answer, u, hfolders, hwork, hfiles⟩ := FileM.run_makeFolderOf path t
  refine ⟨u, hwork, hfiles, ?_⟩
  rw [writeEdgeList, Stepwise.run_bind, FileM.run_ofAnswer, hends]
  simp only
  rw [Stepwise.run_bind, hfolders]
  cases answer with
  | error fault => exact .inl ⟨fault, rfl⟩
  | ok =>
    simp only
    rw [Stepwise.run_bind]
    rcases FileM.run_create (besidePath path) u with ⟨place, hplace, hrun⟩ | ⟨fault, hrun⟩
    · obtain ⟨target, hadmits, rfl⟩ := FileTree.exists_admits_of_placeFor hplace
      refine .inr ⟨target, hadmits, ?_⟩
      rw [hrun]
      simp only
      rw [Stepwise.run_bind, FileM.run_append, String.empty_append]
      simp only
      rw [Stepwise.run_bind, run_appendLines, ← listingOf]
      cases hlines : (linesOf ends).2 with
      | error fault => exact .inl ⟨fault, _, rfl⟩
      | ok =>
        simp only
        rw [Stepwise.run_bind]
        rcases FileM.run_move (besidePath path) path (u.put target.place (listingOf ends)) with
          ⟨v, hmove, hrun⟩ | ⟨fault, hrun⟩
        · rw [hrun]
          exact .inr ⟨trivial, v, hmove, rfl⟩
        · rw [hrun]
          exact .inl ⟨fault, _, rfl⟩
    · rw [hrun]
      exact .inl ⟨fault, rfl⟩

theorem run_writeEdgeList_of_error {fault : Fault} (hends : sortedEnds edges = .error fault)
    (path : String) (t : FileTree) : (writeEdgeList edges path).run t = (.error fault, t) := by
  rw [writeEdgeList, hends]
  rfl

/-- What fails has touched no file but the one beside the destination. -/
theorem agreesOff_of_run_error {fault : Fault}
    (h : (writeEdgeList edges path).run t = (.error fault, u)) :
    t.AgreesOff [Place.resolve t.work (besidePath path)] u := by
  cases hends : sortedEnds edges with
  | error fault =>
    rw [run_writeEdgeList_of_error hends] at h
    cases h
    exact FileTree.agreesOff_of_files_eq rfl _
  | ok ends =>
    obtain ⟨v, hwork, hfiles, hrun⟩ := run_writeEdgeList_cases hends path t
    have hfolders := FileTree.agreesOff_of_files_eq hfiles [Place.resolve t.work (besidePath path)]
    rcases hrun with ⟨fault, hrun⟩ | ⟨target, hadmits, ⟨fault, text, hrun⟩ | ⟨-, w, -, hrun⟩⟩
    · cases hrun.symm.trans h
      exact hfolders
    · cases hrun.symm.trans h
      have hput := FileTree.agreesOff_put v target.place text
      rw [hadmits.place_eq hadmits.isDots_eq, hwork] at hput
      rw [hadmits.place_eq hadmits.isDots_eq, hwork]
      exact hfolders.trans hput
    · cases hrun.symm.trans h

/-- A write that returns has written every line and moved the file. -/
theorem exists_moveFile_of_run_ok {event : Event} (hends : sortedEnds edges = .ok ends)
    (h : (writeEdgeList edges path).run t = (.ok event, u)) :
    (linesOf ends).2 = .ok () ∧ ∃ (v : FileTree) (target : FileTree.Target),
      v.work = t.work ∧ v.files = t.files ∧ v.Admits (besidePath path) target ∧
        (v.put target.place (listingOf ends)).moveFile (besidePath path) path = .ok u := by
  obtain ⟨v, hwork, hfiles, hrun⟩ := run_writeEdgeList_cases hends path t
  rcases hrun with ⟨fault, hrun⟩ | ⟨target, hadmits, ⟨fault, text, hrun⟩ | ⟨hlines, w, hmove, hrun⟩⟩
  · cases hrun.symm.trans h
  · cases hrun.symm.trans h
  · cases hrun.symm.trans h
    exact ⟨hlines, v, target, hwork, hfiles, hadmits, hmove⟩

theorem isWritablePair_of_sortedPairs {pairs : List (ℤ × ℤ)}
    (h : ∀ p ∈ sortedPairs pairs, IsWritablePair p) : ∀ p ∈ pairs, IsWritablePair p := by
  intro p hp
  have hsorted := h (inOrder p) ((perm_sortedPairs pairs).mem_iff.mpr (List.mem_map_of_mem hp))
  rcases inOrder_eq_or_eq_swap p with hsame | hswap
  · rwa [hsame] at hsorted
  · rw [hswap] at hsorted
    exact hsorted.symm

/-- **Saving an edge list is atomic.** For edges between integers, a write that returns leaves the
rows of the edges at its path, each edge with its lesser end first and all in ascending order, and
nothing beside it; none of the integers had too many digits to be written. A write that fails, be it
behind some of the lines, leaves every file as it was but the one beside its path. Edges that cannot
be sorted are refused before anything is touched. -/
theorem writeEdgeList_atomic (t : FileTree) (path : String) :
    (∀ pairs event u, (writeEdgeList (edgesDatum pairs) path).run t = (.ok event, u) →
      (∀ p ∈ pairs, isWritable p.1 ∧ isWritable p.2) ∧
      u.readFile path = .ok (rowsText (sortedPairs pairs)) ∧
      u.readFile (besidePath path) = .error .missing ∧
      t.AgreesOff [Place.resolve t.work path, Place.resolve t.work (besidePath path)] u) ∧
    (∀ edges fault u, (writeEdgeList edges path).run t = (.error fault, u) →
      t.AgreesOff [Place.resolve t.work (besidePath path)] u) ∧
    ∀ edges fault, sortedEnds edges = .error fault →
      (writeEdgeList edges path).run t = (.error fault, t) := by
  refine ⟨fun pairs event u h ↦ ?_, fun edges fault u ↦ agreesOff_of_run_error,
    fun edges fault hends ↦ run_writeEdgeList_of_error hends path t⟩
  obtain ⟨hlines, v, target, hwork, hfiles, hadmits, hmove⟩ :=
    exists_moveFile_of_run_ok (sortedEnds_edgesDatum pairs) h
  obtain ⟨hwritable, hlisting⟩ := listingOf_map_endsOfPair hlines
  obtain ⟨hthere, hbeside, hoff⟩ :=
    FileTree.readFile_of_moveFile (by decide) (by decide) hadmits hmove
  rw [hlisting] at hthere
  rw [hwork] at hoff
  exact ⟨isWritablePair_of_sortedPairs hwritable, hthere, hbeside,
    (FileTree.agreesOff_of_files_eq hfiles _).trans hoff⟩

/-- A folder with an older list, a file left beside it and another file. -/
def olderList : FileTree :=
  { FileTree.empty with
    files := [(["work", "e.csv"], "old"), (["work", "e.csv.tmp"], "half"), (["work", "a"], "b")] }

/-- A list whose greater row has no line, since an end of it has too many digits. -/
theorem exists_sortedPairs_unwritable : ∃ z : ℤ, sortedPairs [(3, z), (2, 1)] = [(1, 2), (3, z)] ∧
    linesOf ([(1, 2), (3, z)].map endsOfPair) = ("1,2\r\n", .error (.tooManyDigits none)) := by
  obtain ⟨z, hz, hless⟩ : ∃ z : ℤ, isWritable z = false ∧ 10 ≤ z :=
    ⟨_, isWritable_ten_pow, le_self_pow₀ (by decide) (by decide)⟩
  refine ⟨z, ?sorted, ?lines⟩
  case sorted =>
    have hinOrder : [(3, z), (2, 1)].map inOrder = [(3, z), (1, 2)] := by
      rw [List.map_cons, inOrder, min_eq_left (by omega), max_eq_right (by omega)]
      rfl
    rw [sortedPairs, hinOrder]
    refine (eq_sortedBy pairAtMost_total pairAtMost_trans pairAtMost_antisymm
      (List.Perm.swap _ _ _) ?_).symm
    simp [pairAtMost, Prod.Lex.toLex_le_toLex]
  case lines =>
    have hthree : isWritable 3 = true := by decide
    have hline : edgeLine (endsOfPair (3, z)) = .error (.tooManyDigits none) := by
      rw [edgeLine, endsOfPair, fieldText_int, fieldText_int, hz, hthree]
      rfl
    simp only [List.map_cons, List.map_nil, linesOf, hline]
    rfl

/-- Both ways of a write: a list takes the place of the older one, and one that ends with an integer
of too many digits leaves the older one, and its own first line beside it. -/
theorem writeEdgeList_atomic_olderList :
    (∃ event u,
      (writeEdgeList (edgesDatum [(2, 1), (0, -1)]) "e.csv").run olderList = (.ok event, u) ∧
      u.readFile "e.csv" = .ok "source,target\r\n-1,0\r\n1,2\r\n" ∧
      u.readFile "e.csv.tmp" = .error .missing) ∧
    ∃ z fault u,
      (writeEdgeList (edgesDatum [(3, z), (2, 1)]) "e.csv").run olderList = (.error fault, u) ∧
      u.textAt? ["work", "e.csv"] = some "old" ∧
      u.textAt? ["work", "e.csv.tmp"] = some "source,target\r\n1,2\r\n" := by
  have hrun : (writeEdgeList (edgesDatum [(2, 1), (0, -1)]) "e.csv").run olderList
      = (.ok (writtenEvent 2 "e.csv"), { FileTree.empty with files :=
        [(["work", "e.csv"], "source,target\r\n-1,0\r\n1,2\r\n"), (["work", "a"], "b")] }) := rfl
  obtain ⟨-, hthere, hbeside, -⟩ := (writeEdgeList_atomic olderList "e.csv").1 _ _ _ hrun
  refine ⟨⟨_, _, hrun, hthere, hbeside⟩, ?_⟩
  obtain ⟨z, hsorted, hlines⟩ := exists_sortedPairs_unwritable
  have hstopped : (writeEdgeList (edgesDatum [(3, z), (2, 1)]) "e.csv").run olderList
      = (.error (.tooManyDigits none),
        olderList.put ["work", "e.csv.tmp"] "source,target\r\n1,2\r\n") := by
    have hfolders : (FileM.makeFolderOf "e.csv").run olderList = (.ok (), olderList) := rfl
    have hcreate : (FileM.create (besidePath "e.csv")).run olderList
        = (.ok ["work", "e.csv.tmp"], olderList.put ["work", "e.csv.tmp"] "") := rfl
    simp only [writeEdgeList, Stepwise.run_bind, FileM.run_ofAnswer, sortedEnds_edgesDatum, hsorted,
      hfolders, hcreate, FileM.run_append, run_appendLines, hlines]
    rfl
  have hoff := (writeEdgeList_atomic olderList "e.csv").2.1 _ _ _ hstopped
  exact ⟨z, _, _, hstopped, hoff _ (by decide), rfl⟩

end DegreeGraph
