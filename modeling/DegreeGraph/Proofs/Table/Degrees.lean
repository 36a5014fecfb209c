import DegreeGraph.Proofs.Table.Column
import DegreeGraph.Table.Degrees

/-!
# Degrees and the rows of their table

Every row of a table gives one degree, which is the number in one of its cells, and a row whose cell
has no value is refused (`degreesIn_reads_rows`). But a line of nothing but spaces and tabs is no
row, so it is passed over where it stands in a table of a single column as well, and the degrees
below it are those of other nodes (`degreesIn_passes_over_blank_line`). The places of rows show
whether this has happened: rows are on the lines right below the header exactly if no line has been
passed over.
-/

namespace DegreeGraph

open DegreeGraph.Packed

variable {cell : List Char} {d : ℤ} {degrees : List ℤ} {c : Column} {sheet : Sheet}
  {text path name : String} {i : ℕ}

/-! ## Cells -/

/-- An entry is a number without a fraction. -/
def Column.Entry.Gives (e : Column.Entry) (d : ℤ) : Prop :=
  e.whole? = some d ∨ ∃ x, e.double? = .ok (some x) ∧ integral? x = some d

/-- A cell gives a degree. -/
def Cell.Gives (cell : List Char) (d : ℤ) : Prop :=
  ∃ e : Column.Entry, e.IsReadIn cell ∧ e.Gives d

/-- The words for missing values are no numbers as texts either. -/
theorem Cell.eq_none_of_isMissing (h : Cell.isMissing cell = true) :
    Cell.whole? cell = none ∧ Cell.number? cell = none := by
  have hwords : ∀ w ∈ Cell.missingWords, Cell.whole? w.toList = none
      ∧ (Cell.number? w.toList).isNone = true := by decide
  have hcell := hwords _ (List.contains_iff_mem.mp h)
  rw [String.toList_ofList] at hcell
  exact ⟨hcell.1, Option.isNone_iff_eq_none.mp hcell.2⟩

/-- What is read in a cell without a value is no number. -/
theorem Column.Entry.IsReadIn.eq_none {e : Column.Entry} (h : e.IsReadIn cell)
    (hmissing : Cell.isMissing cell = true) : e.whole? = none ∧ e.double? = .ok none := by
  obtain ⟨hwhole, hnumber⟩ := Cell.eq_none_of_isMissing hmissing
  rcases h.eq_of_isMissing hmissing with rfl | rfl
  · exact ⟨rfl, rfl⟩
  · exact ⟨hwhole, congrArg Except.ok hnumber⟩

theorem Cell.Gives.isMissing_eq_false (h : Cell.Gives cell d) : Cell.isMissing cell = false := by
  obtain ⟨e, hread, hgives⟩ := h
  refine Bool.eq_false_iff.mpr fun hmissing ↦ ?_
  obtain ⟨hwhole, hdouble⟩ := hread.eq_none hmissing
  rcases hgives with hd | ⟨x, hx, -⟩
  · cases hwhole.symm.trans hd
  · cases hdouble.symm.trans hx

/-! ## Columns -/

section Lists

variable {α β γ : Type} {xs : List α} {ys : List β} {zs : List γ}

theorem forall₂_of_mapM {f : α → Option β} (h : xs.mapM f = some ys) :
    List.Forall₂ (fun x y ↦ f x = some y) xs ys := by
  induction xs generalizing ys with
  | nil =>
    cases h
    exact .nil
  | cons x xs ih =>
    rw [List.mapM_cons] at h
    obtain ⟨y, hy, h⟩ := Option.bind_eq_some_iff.mp h
    obtain ⟨rest, hrest, h⟩ := Option.bind_eq_some_iff.mp h
    cases h
    exact .cons hy (ih hrest)

theorem forall₂_trans {R : α → β → Prop} {S : β → γ → Prop} {T : α → γ → Prop}
    (htrans : ∀ x y z, R x y → S y z → T x z) (h : List.Forall₂ R xs ys)
    (h' : List.Forall₂ S ys zs) : List.Forall₂ T xs zs := by
  induction h generalizing zs with
  | nil =>
    cases h'
    exact .nil
  | cons hxy _ ih =>
    obtain ⟨z, rest, hyz, hrest, rfl⟩ := List.forall₂_cons_left_iff.mp h'
    exact .cons (htrans _ _ _ hxy hyz) (ih hrest)

theorem exists_of_mem_left {R : α → β → Prop} (h : List.Forall₂ R xs ys) {x : α} (hx : x ∈ xs) :
    ∃ y ∈ ys, R x y := by
  induction h with
  | nil => cases hx
  | cons hxy _ ih =>
    rcases List.mem_cons.mp hx with rfl | hx
    · exact ⟨_, List.mem_cons_self, hxy⟩
    · obtain ⟨y, hy, hR⟩ := ih hx
      exact ⟨y, List.mem_cons_of_mem _ hy, hR⟩

end Lists

namespace Column

theorem Entry.double?_cases (e : Entry) :
    (∃ v, e.double? = .ok v) ∨ e.double? = .error .oversizedForDouble := by
  cases e with
  | whole z =>
    rw [Entry.double?]
    split
    · exact .inl ⟨_, rfl⟩
    · exact .inr rfl
  | _ => exact .inl ⟨_, rfl⟩

theorem doubles_cases (c : Column) :
    (∃ values, doubles c = .ok values ∧ List.Forall₂ (fun e v ↦ e.double? = .ok v) c values)
      ∨ doubles c = .error .oversizedForDouble := by
  induction c with
  | nil => exact .inl ⟨[], rfl, .nil⟩
  | cons e c ih =>
    rw [doubles]
    rcases e.double?_cases with ⟨v, hv⟩ | hfault
    · rw [hv]
      rcases ih with ⟨values, hvalues, hall⟩ | hfault
      · rw [hvalues]
        exact .inl ⟨v :: values, rfl, .cons hv hall⟩
      · rw [hfault]
        exact .inr rfl
    · rw [hfault]
      exact .inr rfl

/-- The numbers of a column are those of its entries, exact or as doubles, unless one of them is
beyond the doubles. -/
theorem numbers_cases (c : Column) :
    (∃ zs, numbers c = .ok (.exact zs) ∧ List.Forall₂ (fun e z ↦ e.whole? = some z) c zs)
      ∨ (∃ values, numbers c = .ok (.rounded values)
        ∧ List.Forall₂ (fun e v ↦ e.double? = .ok v) c values)
      ∨ numbers c = .error .oversizedForDouble := by
  rw [numbers]
  cases hwhole : (c.mapM Entry.whole?).filter fitTogether with
  | some zs => exact .inl ⟨zs, rfl, forall₂_of_mapM (Option.filter_eq_some_iff.mp hwhole).1⟩
  | none =>
    rcases doubles_cases c with ⟨values, hvalues, hall⟩ | hfault
    · rw [hvalues]
      exact .inr (.inl ⟨values, rfl, hall⟩)
    · rw [hfault]
      exact .inr (.inr rfl)

theorem rowsWithout_ne_nil {values : List (Option Float)} (h : none ∈ values) :
    rowsWithout values ≠ [] := by
  rw [← List.zipIdx_map_fst 0 values] at h
  obtain ⟨p, hp, hnone⟩ := List.mem_map.mp h
  have hmem : p.2 ∈ rowsWithout values :=
    List.mem_map_of_mem (List.mem_filter.mpr ⟨hp, Option.isNone_iff_eq_none.mpr hnone⟩)
  exact List.ne_nil_of_mem hmem

end Column

namespace Sheet

/-- The degrees of a column are given by its cells, in order. -/
theorem forall₂_degreesAt (h : sheet.degreesAt path name i = .ok degrees) :
    List.Forall₂ Cell.Gives (sheet.column i) degrees := by
  have hcells : List.Forall₂ (fun c e ↦ e.IsReadIn c) (sheet.column i) (sheet.columnAt i) :=
    Column.forall₂_ofCells _ _
  have hgives : List.Forall₂ Column.Entry.Gives (sheet.columnAt i) degrees := by
    rw [degreesAt] at h
    rcases Column.numbers_cases (sheet.columnAt i) with
      ⟨zs, hnumbers, hall⟩ | ⟨values, hnumbers, hall⟩ | hfault
    · rw [hnumbers] at h
      cases h
      exact hall.imp fun _ _ ↦ Or.inl
    · simp only [hnumbers, bind, Except.bind] at h
      split at h
      · split at h
        · rename_i ds hds
          cases h
          refine forall₂_trans (fun e v z hv hz ↦ ?_) hall (forall₂_of_mapM hds)
          obtain ⟨x, rfl, hx⟩ := Option.bind_eq_some_iff.mp hz
          exact Or.inr ⟨x, hv, hx⟩
        · cases h
      · obtain ⟨labels, -, h⟩ := Stepwise.exists_of_bind_eq_ok h
        cases h
    · rw [hfault] at h
      cases h
  exact forall₂_trans (fun _ e _ hread hd ↦ ⟨e, hread, hd⟩) hcells hgives

theorem rowLabels_eq_of_unlabelled (hlabels : sheet.labels = 0) (labels : Column)
    (rows : List ℕ) : rowLabels sheet labels rows = .ok (rows.map Int.ofNat) := by
  induction rows with
  | nil => rfl
  | cons row rows ih =>
    rw [rowLabels, rowLabel, if_pos hlabels, ih]
    rfl

/-- A column with a cell without a value is refused: the rows without numbers are named, unless
another cell holds a number beyond the doubles. -/
theorem degreesAt_of_isMissing (hlabels : sheet.labels = 0) (hcell : cell ∈ sheet.column i)
    (hmissing : Cell.isMissing cell = true) :
    sheet.degreesAt path name i = .error .oversizedForDouble
      ∨ ∃ rows, sheet.degreesAt path name i = .error (.notNumeric path rows) := by
  have hcells : List.Forall₂ (fun c e ↦ e.IsReadIn c) (sheet.column i) (sheet.columnAt i) :=
    Column.forall₂_ofCells _ _
  obtain ⟨e, he, hread⟩ := exists_of_mem_left hcells hcell
  obtain ⟨hwhole, hdouble⟩ := hread.eq_none hmissing
  rw [degreesAt]
  rcases Column.numbers_cases (sheet.columnAt i) with
    ⟨zs, -, hall⟩ | ⟨values, hnumbers, hall⟩ | hfault
  · obtain ⟨z, -, hz⟩ := exists_of_mem_left hall he
    cases hwhole.symm.trans hz
  · obtain ⟨v, hv, hsame⟩ := exists_of_mem_left hall he
    obtain rfl := Except.ok.inj (hdouble.symm.trans hsame)
    refine Or.inr ?_
    rw [hnumbers]
    cases hrows : rowsWithout values with
    | nil => exact absurd hrows (Column.rowsWithout_ne_nil hv)
    | cons row rows =>
      simp only [bind, Except.bind, hrows, rowLabels_eq_of_unlabelled hlabels]
      exact ⟨_, rfl⟩
  · rw [hfault]
    exact Or.inl rfl

/-! ## Rows -/

theorem getD_fill (width : ℕ) (fields : List (List Char)) (i : ℕ) :
    (fill width fields).getD i [] = fields.getD i [] := by
  rw [fill]
  by_cases hi : i < fields.length
  · exact List.getD_append _ _ _ _ hi
  · rw [List.getD_append_right _ _ _ _ (not_lt.mp hi), List.getD_eq_default _ _ (not_lt.mp hi)]
    simp

theorem map_fill_of_fillRows {width : ℕ} {rows : List Row} {cells : List (List (List Char))}
    (h : fillRows width rows = .ok cells) : cells = rows.map fun row ↦ fill width row.fields := by
  induction rows generalizing cells with
  | nil =>
    cases h
    rfl
  | cons row rows ih =>
    rw [fillRows] at h
    split at h
    · cases h
    · obtain ⟨later, hlater, h⟩ := Stepwise.exists_of_bind_eq_ok h
      cases h
      rw [ih hlater, List.map_cons]

/-- The cells of a column stand in the rows below the first one, which holds the names. -/
theorem exists_rows_of_ofText (h : ofText text = .ok sheet) :
    ∃ header body, Rows.ofText text = ⟨header :: body, none⟩ ∧ sheet.names = namesOf header.fields
      ∧ ∀ i, sheet.column i = body.map fun row ↦ row.fields.getD i [] := by
  rw [ofText] at h
  simp only at h
  split at h
  · cases h
  · rename_i header body hrows
    obtain ⟨cells, hcells, h⟩ := Stepwise.exists_of_bind_eq_ok h
    split at h
    · cases h
    · rename_i hfault
      cases h
      refine ⟨header, body, ?_, rfl, fun i ↦ ?_⟩
      · rw [← hrows, ← hfault]
      · rw [column, map_fill_of_fillRows hcells, List.map_map]
        exact List.map_congr_left fun row _ ↦ getD_fill _ _ _

end Sheet

/-! ## Lines -/

namespace Rows

/-- Rows stand on lines behind a number of others, and each behind the one before. -/
structure AreBehind (before : ℕ) (r : Rows) : Prop where
  before_lt : ∀ row ∈ r.rows, before < row.line
  ascending : r.rows.Pairwise fun row row' ↦ row.line < row'.line

theorem AreBehind.of_le {m n : ℕ} {r : Rows} (hle : m ≤ n) (h : r.AreBehind n) : r.AreBehind m :=
  ⟨fun row hrow ↦ hle.trans_lt (h.before_lt row hrow), h.ascending⟩

/-- The end of a line adds its row or nothing. -/
theorem AreBehind.close {below : Rows} (l : Line) (place : Place)
    (h : below.AreBehind (l.before + 1)) : (l.close place below).AreBehind l.before := by
  rw [Line.close]
  split
  · exact h.of_le (Nat.le_succ _)
  · refine ⟨List.forall_mem_cons.mpr ⟨Nat.lt_succ_self _, fun row hrow ↦ ?_⟩,
      List.pairwise_cons.mpr ⟨h.before_lt, h.ascending⟩⟩
    exact (Nat.lt_succ_self _).trans (h.before_lt row hrow)

theorem areBehind_nil (before : ℕ) (fault : Option Fault) : AreBehind before ⟨[], fault⟩ :=
  ⟨List.forall_mem_nil _, List.Pairwise.nil⟩

theorem before_afterMargin (l : Line) : l.afterMargin.before = l.before := by
  rw [Line.afterMargin]
  split
  · rfl
  · rfl

/-- Whatever is read, rows come in the order of their lines. -/
theorem areBehind_scan (place : Place) (l : Line) (s : List Char) :
    (scan place l s).AreBehind l.before := by
  induction s generalizing place l with
  | nil =>
    rw [scan]
    split
    · exact areBehind_nil _ _
    · exact .close l place (areBehind_nil _ _)
  | cons c rest ih =>
    have hfresh (place : Place) : (scan place (.fresh (l.before + 1)) rest).AreBehind
        (l.before + 1) := ih place (.fresh (l.before + 1))
    rw [scan]
    split_ifs
    · exact ih _ l
    · exact ih _ (l.push c)
    · exact ih _ (l.push c)
    · exact ih _ (l.take c)
    · exact .close l place (hfresh _)
    · exact .close l place (hfresh _)
    · exact ih _ (l.push c)
    · exact ih _ l
    · rw [← before_afterMargin l]
      exact ih _ l.afterMargin.next
    · rw [← before_afterMargin l]
      exact ih _ (l.afterMargin.push c)
    · exact ih _ l.next
    · exact ih _ (l.push c)

theorem areBehind_ofText (text : String) : (ofText text).AreBehind 0 :=
  areBehind_scan .lineStart (.fresh 0) _

/-- A row that comes a number of rows behind another one is at least as many lines below it. -/
theorem line_add_le {rows : List Row} (h : rows.Pairwise fun row row' ↦ row.line < row'.line)
    {j k : ℕ} (hjk : j + k < rows.length) : rows[j].line + k ≤ rows[j + k].line := by
  induction k with
  | zero => exact le_rfl
  | succ k ih =>
    have hlt : rows[j + k].line < rows[j + (k + 1)].line :=
      List.pairwise_iff_getElem.mp h _ _ (by omega) hjk (by omega)
    have hle := ih (by omega)
    omega

/-- Rows that fill the lines below the first one are on successive lines. -/
theorem line_eq_of_le {header : Row} {body : List Row}
    (h : (header :: body).Pairwise fun row row' ↦ row.line < row'.line)
    (hfill : ∀ row ∈ body, row.line ≤ header.line + body.length) (k : ℕ) (hk : k < body.length) :
    body[k].line = header.line + k + 1 := by
  have hbelow : header.line + (k + 1) ≤ body[k].line := by
    have hle := line_add_le (j := 0) (k := k + 1) h (by simpa using hk)
    simpa using hle
  have habove : body[k].line + (body.length - 1 - k) ≤ header.line + body.length := by
    have hle := line_add_le (j := k) (k := body.length - 1 - k) h.of_cons (by omega)
    exact hle.trans (hfill _ (List.getElem_mem _))
  omega

end Rows

/-! ## Tables -/

/-- **Degrees are read row by row.** In a table that has the column, every row below the first one
gives one degree, in order, if there are degrees at all, and none of the cells is without a value
then. Such a cell is refused and its row is named, unless another cell holds a number beyond the
doubles or rows have labels of their own. The rows come in the order of their lines; if they fill
the lines below the first one, the degree of a node stands on the line that is as far below. -/
theorem degreesIn_reads_rows (medium : Medium) (hpath : Packing.ofPath? path = none)
    (hsheet : Sheet.ofText text = .ok sheet) {place : ℕ} (hplace : sheet.place? name = some place) :
    ∃ (header : Row) (body : List Row), Rows.ofText text = ⟨header :: body, none⟩
      ∧ sheet.names = Sheet.namesOf header.fields
      ∧ (∀ degrees, degreesIn medium path (.text name) text = .ok degrees →
        List.Forall₂ (fun row d ↦ Cell.isMissing (row.fields.getD place []) = false
          ∧ Cell.Gives (row.fields.getD place []) d) body degrees)
      ∧ (sheet.labels = 0 → ∀ row ∈ body, Cell.isMissing (row.fields.getD place []) = true →
        degreesIn medium path (.text name) text = .error .oversizedForDouble
          ∨ ∃ rows, degreesIn medium path (.text name) text = .error (.notNumeric path rows))
      ∧ (∀ (k : ℕ) (hk : k < body.length), header.line + k < body[k].line)
      ∧ ((∀ row ∈ body, row.line ≤ header.line + body.length) →
        ∀ (k : ℕ) (hk : k < body.length), body[k].line = header.line + k + 1) := by
  obtain ⟨header, body, hrows, hnames, hcolumn⟩ := Sheet.exists_rows_of_ofText hsheet
  have hread : degreesIn medium path (.text name) text = sheet.degreesAt path name place := by
    rw [degreesIn, Sheet.ofFile, hpath]
    simp only [hsheet, bind, Except.bind, Sheet.degrees, hplace]
  have hascending := (Rows.areBehind_ofText text).ascending
  rw [hrows] at hascending
  refine ⟨header, body, hrows, hnames, fun degrees h ↦ ?given,
    fun hlabels row hrow hmissing ↦ ?refused, fun k hk ↦ ?below, Rows.line_eq_of_le hascending⟩
  case given =>
    have hgives := Sheet.forall₂_degreesAt (hread.symm.trans h)
    rw [hcolumn, List.forall₂_map_left_iff] at hgives
    exact hgives.imp fun _ _ hd ↦ ⟨hd.isMissing_eq_false, hd⟩
  case refused =>
    rw [hread]
    refine Sheet.degreesAt_of_isMissing hlabels ?_ hmissing
    rw [hcolumn]
    exact List.mem_map_of_mem hrow
  case below =>
    have hle := Rows.line_add_le (j := 0) (k := k + 1) hascending (by simpa using hk)
    simp only [List.getElem_cons_zero, Nat.zero_add, List.getElem_cons_succ] at hle
    omega

/-- A table of one column, in which the second cell is there but has no value. -/
theorem degreesIn_reads_rows_quoted :
    Packing.ofPath? "d.csv" = none
      ∧ Sheet.ofText "degree\n1\n\"\"\n" = .ok ⟨["degree"], 0, [[['1']], [[]]]⟩
      ∧ degreesIn .file "d.csv" (.text "degree") "degree\n1\n\"\"\n"
        = .error (.notNumeric "d.csv" [1]) := by
  have hpath : Packing.ofPath? "d.csv" = none := rfl
  have hsheet : Sheet.ofText "degree\n1\n\"\"\n" = .ok ⟨["degree"], 0, [[['1']], [[]]]⟩ := rfl
  have hplace : Sheet.place? ⟨["degree"], 0, [[['1']], [[]]]⟩ "degree" = some 0 := rfl
  have hrows : Rows.ofText "degree\n1\n\"\"\n"
      = ⟨[⟨1, ["degree".toList]⟩, ⟨2, [['1']]⟩, ⟨3, [[]]⟩], none⟩ := rfl
  have hfault : degreesIn .file "d.csv" (.text "degree") "degree\n1\n\"\"\n"
      = .error (.notNumeric "d.csv" [1]) := rfl
  obtain ⟨header, body, hfound, -, -, hrefused, -⟩ :=
    degreesIn_reads_rows .file hpath hsheet hplace
  obtain ⟨hall, -⟩ := Rows.mk.inj (hrows.symm.trans hfound)
  obtain ⟨rfl, rfl⟩ := List.cons.inj hall
  -- The theorem names the fault, and the table decides which rows it names.
  rcases hrefused rfl ⟨3, [[]]⟩ (by simp) rfl with hlarge | ⟨rows, hnamed⟩
  · cases hfault.symm.trans hlarge
  · cases hfault.symm.trans hnamed
    exact ⟨hpath, hsheet, hnamed⟩

/-- **A blank line in a table of one column is passed over**, and the degree below it is that of
another node. -/
theorem degreesIn_passes_over_blank_line :
    degreesIn .file "d.csv" (.text "degree") "degree\n1\n\n1\n" = .ok [1, 1]
      ∧ (Rows.ofText "degree\n1\n\n1\n").rows.map Row.line = [1, 2, 4] := ⟨rfl, rfl⟩

end DegreeGraph
