import DegreeGraph.Edge.Listing
import DegreeGraph.Proofs.Number.Decimal
import DegreeGraph.Proofs.Table.Degrees

/-!
# Written lines and written integers are read back

A line of bare fields, with commas between them and a carriage return and a line feed behind them,
is read as the row of these fields, and the next line begins behind it (`Rows.scan_line`). The line
feed is no line of its own: it belongs to the carriage return.

A column of written integers is a column of whole numbers, however it is cut into pieces, as long as
all of them have 64 bits (`Column.ofCells_writeInt`). So its numbers are exact, and they are the
degrees of the column (`Sheet.degreesAt_eq_of_writeInt`).
-/

namespace DegreeGraph

open DegreeGraph.Number

/-! ## Lines -/

namespace Rows

variable {place : Place} {l : Line} {s rest : List Char} {c : Char}

/-- A character that is taken as it stands, wherever in a line it is. -/
def isPlain (c : Char) : Bool := !needsQuotes c && !isMargin c

/-- A field that stands in a line as it is. -/
structure IsBareField (s : List Char) : Prop where
  ne_nil : s ≠ []
  isPlain : ∀ c ∈ s, isPlain c = true

theorem scan_bare_cons (hc : isPlain c = true) (l : Line) (rest : List Char) :
    scan .bare l (c :: rest) = scan .bare (l.push c) rest := by
  simp only [isPlain, needsQuotes, Bool.and_eq_true, Bool.not_eq_true', Bool.or_eq_false_iff] at hc
  obtain ⟨⟨⟨⟨hcomma, -⟩, hreturn⟩, hfeed⟩, -⟩ := hc
  rw [scan]
  simp [Place.takes, Place.isBlank, Place.opens, hcomma, hreturn, hfeed]

/-- The first character of a field stands where a line or a field begins. -/
theorem scan_start_cons (hplace : place = .lineStart ∨ place = .fieldStart)
    (hc : isPlain c = true) (l : Line) (rest : List Char) :
    scan place l (c :: rest) = scan .bare (l.push c) rest := by
  simp only [isPlain, needsQuotes, Bool.and_eq_true, Bool.not_eq_true', Bool.or_eq_false_iff] at hc
  obtain ⟨⟨⟨⟨hcomma, hquote⟩, hreturn⟩, hfeed⟩, hmargin⟩ := hc
  rcases hplace with rfl | rfl
  all_goals
    rw [scan]
    simp [Place.takes, Place.isBlank, Place.opens, hcomma, hquote, hreturn, hfeed, hmargin]

theorem scan_bare_append (hs : ∀ c ∈ s, isPlain c = true) (l : Line) (rest : List Char) :
    scan .bare l (s ++ rest) = scan .bare { l with field := s.reverse ++ l.field } rest := by
  induction s generalizing l with
  | nil => rfl
  | cons c s ih =>
    rw [List.cons_append, scan_bare_cons (hs c List.mem_cons_self),
      ih (fun d hd ↦ hs d (List.mem_cons_of_mem c hd)), Line.push, List.reverse_cons,
      List.append_assoc]
    rfl

/-- A bare field is read from its beginning to its end. -/
theorem IsBareField.scan_append (hs : IsBareField s)
    (hplace : place = .lineStart ∨ place = .fieldStart) (hl : l.field = []) (rest : List Char) :
    scan place l (s ++ rest) = scan .bare { l with field := s.reverse } rest := by
  obtain ⟨hne, hplain⟩ := hs
  cases s with
  | nil => exact absurd rfl hne
  | cons c s =>
    rw [List.cons_append, scan_start_cons hplace (hplain c List.mem_cons_self),
      scan_bare_append fun d hd ↦ hplain d (List.mem_cons_of_mem c hd), Line.push, hl,
      List.reverse_cons]

theorem scan_bare_comma (l : Line) (rest : List Char) :
    scan .bare l (',' :: rest) = scan .fieldStart l.next rest := rfl

/-- The line feed behind a carriage return is no line. -/
theorem scan_bare_lineEnd (l : Line) (rest : List Char) :
    scan .bare l ('\r' :: '\n' :: rest)
      = (scan .lineStart (.fresh (l.before + 1)) rest).cons l.toRow := rfl

/-- **A line of two bare fields is a row.** -/
theorem scan_line {a b : List Char} (ha : IsBareField a) (hb : IsBareField b) (n : ℕ)
    (rest : List Char) :
    scan .lineStart (.fresh n) (a ++ ',' :: (b ++ '\r' :: '\n' :: rest))
      = (scan .lineStart (.fresh (n + 1)) rest).cons ⟨n + 1, [a, b]⟩ := by
  rw [ha.scan_append (Or.inl rfl) rfl, scan_bare_comma, hb.scan_append (Or.inr rfl) rfl,
    scan_bare_lineEnd]
  simp [Line.toRow, Line.next, Line.fresh]

/-- Lines of two bare fields are rows, to the end of the text. -/
theorem exists_scan_lines {lines : List (List Char × List Char)}
    (h : ∀ p ∈ lines, IsBareField p.1 ∧ IsBareField p.2) (n : ℕ) :
    ∃ rows, scan .lineStart (.fresh n)
        (lines.flatMap fun p ↦ p.1 ++ ',' :: (p.2 ++ ['\r', '\n'])) = ⟨rows, none⟩
      ∧ rows.map Row.fields = lines.map fun p ↦ [p.1, p.2] := by
  induction lines generalizing n with
  | nil => exact ⟨[], rfl, rfl⟩
  | cons p lines ih =>
    obtain ⟨⟨hfirst, hsecond⟩, hlater⟩ := List.forall_mem_cons.mp h
    obtain ⟨rows, hrows, hfields⟩ := ih hlater (n + 1)
    have hline := scan_line hfirst hsecond n
      (lines.flatMap fun p ↦ p.1 ++ ',' :: (p.2 ++ ['\r', '\n']))
    refine ⟨⟨n + 1, [p.1, p.2]⟩ :: rows, ?_, ?_⟩
    · rw [List.flatMap_cons]
      simp only [List.append_assoc, List.cons_append, List.nil_append] at hline ⊢
      rw [hline, hrows, Rows.cons]
    · rw [List.map_cons, List.map_cons, hfields]

end Rows

/-! ## Tables -/

namespace Sheet

theorem fillRows_eq {width : ℕ} {rows : List Row}
    (h : ∀ row ∈ rows, row.fields.length = width) :
    fillRows width rows = .ok (rows.map Row.fields) := by
  induction rows with
  | nil => rfl
  | cons row rows ih =>
    obtain ⟨hrow, hlater⟩ := List.forall_mem_cons.mp h
    rw [fillRows, if_neg (not_lt.mpr hrow.le), ih hlater, fill, hrow, Nat.sub_self]
    simp [bind, Except.bind, pure, Except.pure]

/-- Rows that are as long as the header are the table, as they stand. -/
theorem ofText_eq {text : String} {header : Row} {body : List Row}
    (hrows : Rows.ofText text = ⟨header :: body, none⟩)
    (hlength : ∀ row ∈ body, row.fields.length = header.fields.length) :
    ofText text = .ok ⟨namesOf header.fields, 0, body.map Row.fields⟩ := by
  have hwidth : max header.fields.length
      ((body.head?.map fun row ↦ row.fields.length).getD 0) = header.fields.length := by
    cases body with
    | nil => exact Nat.max_zero _
    | cons row body => exact max_eq_left (hlength row List.mem_cons_self).le
  rw [ofText, hrows]
  simp only [hwidth, fillRows_eq hlength, Nat.sub_self, bind, Except.bind, pure, Except.pure]

end Sheet

/-! ## Cells -/

namespace Cell

variable {z : ℤ} {n : ℕ} {c : Char}

theorem isPad_of_isDigit (hc : c.isDigit = true) : isPad c = false := by
  obtain ⟨hle, hlt⟩ := isDigit_iff.mp hc
  have hspace : c ≠ ' ' := by
    rintro rfl
    exact absurd hle (by decide)
  simp only [isPad, Bool.or_eq_false_iff, beq_eq_false_iff_ne, Bool.and_eq_false_iff,
    decide_eq_false_iff_not]
  exact ⟨hspace, Or.inr (by omega)⟩

theorem dropWhile_isPad_writeInt (z : ℤ) :
    (writeInt z).toList.dropWhile isPad = (writeInt z).toList := by
  refine Text.dropWhile_eq_self fun c hc ↦ ?_
  rcases eq_minus_or_isDigit_of_mem_writeInt hc with rfl | hdigit
  · rfl
  · exact isPad_of_isDigit hdigit

theorem isDigit_of_mem_toDigits (hc : c ∈ Nat.toDigits 10 n) : c.isDigit = true :=
  Nat.isDigit_of_mem_toDigits (by decide) le_rfl hc

theorem takeWhile_isDigit_toDigits (n : ℕ) :
    (Nat.toDigits 10 n).takeWhile (·.isDigit) = Nat.toDigits 10 n :=
  List.takeWhile_eq_self_iff.mpr fun _ ↦ isDigit_of_mem_toDigits

theorem dropWhile_isDigit_toDigits (n : ℕ) :
    (Nat.toDigits 10 n).dropWhile (·.isDigit) = [] :=
  List.dropWhile_eq_nil_iff.mpr fun _ ↦ isDigit_of_mem_toDigits

theorem takeSign_writeInt (z : ℤ) :
    takeSign (writeInt z).toList = (decide (z < 0), Nat.toDigits 10 z.natAbs) := by
  rcases lt_or_ge z 0 with hneg | hnonneg
  · obtain ⟨n, rfl⟩ := Int.exists_eq_neg_ofNat hneg.le
    rw [toList_writeInt_neg (by omega), takeSign, Int.natAbs_neg, Int.natAbs_natCast,
      decide_eq_true hneg]
  · obtain ⟨n, rfl⟩ := Int.eq_ofNat_of_zero_le hnonneg
    rw [toList_writeInt_natCast, Int.natAbs_natCast, decide_eq_false (not_lt.mpr hnonneg),
      takeSign.eq_def]
    -- A digit is no sign.
    have hsign {c : Char} {rest : List Char} (hdigits : Nat.toDigits 10 n = c :: rest) :
        c.isDigit = true := isDigit_of_mem_toDigits (hdigits ▸ List.mem_cons_self)
    split
    · rename_i hdigits
      exact absurd (hsign hdigits) (by decide)
    · rename_i hdigits
      exact absurd (hsign hdigits) (by decide)
    · rfl

/-- **A written integer is the whole number at the beginning of its cell**, and nothing is left. -/
theorem leadingWhole?_writeInt (z : ℤ) : leadingWhole? (writeInt z).toList = some (z, []) := by
  have hdigits : (Nat.toDigits 10 z.natAbs).isEmpty = false :=
    List.isEmpty_eq_false_iff.mpr Nat.toDigits_ne_nil
  have hvalue : digitsValue (Nat.toDigits 10 z.natAbs) = z.natAbs := ofDigits_toDigits z.natAbs
  have hsigned : signed (decide (z < 0)) z.natAbs = z := by
    rw [signed]
    split
    · rename_i hneg
      have hlt := of_decide_eq_true hneg
      omega
    · rename_i hnonneg
      have hle := mt decide_eq_true hnonneg
      omega
  simp only [leadingWhole?, dropWhile_isPad_writeInt, takeSign_writeInt,
    takeWhile_isDigit_toDigits, dropWhile_isDigit_toDigits, hdigits, hvalue, hsigned]
  rfl

/-- Each word for a missing value is empty or holds something else than signs and digits. -/
theorem isMissing_writeInt (z : ℤ) : isMissing (writeInt z).toList = false := by
  have hwords : ∀ w ∈ missingWords,
      w.toList = [] ∨ w.toList.all (fun c ↦ c == '-' || c.isDigit) = false := by decide
  refine Bool.eq_false_iff.mpr fun hmissing ↦ ?_
  rw [isMissing, String.ofList_toList, List.contains_iff_mem] at hmissing
  rcases hwords _ hmissing with hempty | hother
  · exact toList_writeInt_ne_nil z hempty
  · refine Bool.eq_false_iff.mp hother (List.all_eq_true.mpr fun c hc ↦ ?_)
    rw [Bool.or_eq_true, beq_iff_eq]
    exact eq_minus_or_isDigit_of_mem_writeInt hc

end Cell

/-! ## Columns -/

namespace Column

variable {zs : List ℤ} {α β : Type}

theorem readInt64_writeInt (hfits : ∀ z ∈ zs, isInt64 z) :
    readInt64 (zs.map fun z ↦ some (writeInt z).toList) = .all (zs.map .whole) := by
  induction zs with
  | nil => rfl
  | cons z zs ih =>
    obtain ⟨hz, hlater⟩ := List.forall_mem_cons.mp hfits
    have hword : readWhole isInt64 (writeInt z).toList = .all z := by
      rw [readWhole, Cell.leadingWhole?_writeInt]
      exact if_pos hz
    rw [List.map_cons, readInt64, hword]
    simp only [ih hlater, List.map_cons]

theorem pieceOf_writeInt (hfits : ∀ z ∈ zs, isInt64 z) :
    pieceOf (zs.map fun z ↦ (writeInt z).toList) = ⟨.signed, zs.map .whole⟩ := by
  have hwords : ((zs.map fun z ↦ (writeInt z).toList).map fun c ↦
      if Cell.isMissing c then none else some c) = zs.map fun z ↦ some (writeInt z).toList := by
    rw [List.map_map]
    refine List.map_congr_left fun z _ ↦ ?_
    rw [Function.comp_apply, Cell.isMissing_writeInt]
    rfl
  have hthere : (zs.map Entry.whole).any isMissing = false := by
    rw [List.any_map, List.any_eq_false]
    exact fun z _ ↦ Bool.false_ne_true
  simp only [pieceOf, hwords, readInt64_writeInt hfits, hthere]
  rfl

theorem inPieces_map (f : α → β) (length fuel : ℕ) (xs : List α) :
    inPieces length fuel (xs.map f) = (inPieces length fuel xs).map (List.map f) := by
  induction fuel generalizing xs with
  | zero => rfl
  | succ fuel ih =>
    rw [inPieces, inPieces, List.length_map]
    split
    · rfl
    · rw [List.map_cons, List.map_take, ← List.map_drop, ih]

theorem mem_of_mem_inPieces {length fuel : ℕ} {xs piece : List α} {x : α}
    (hpiece : piece ∈ inPieces length fuel xs) (hx : x ∈ piece) : x ∈ xs := by
  rw [← flatten_inPieces length fuel xs]
  exact List.mem_flatten_of_mem hpiece hx

theorem needDouble_replicate_signed (count : ℕ) :
    Format.needDouble (List.replicate count .signed) = false := by
  have hsame : (List.replicate count Format.signed).any
      (· != (List.replicate count Format.signed).headD .mixed) = false := by
    cases count with
    | zero => rfl
    | succ count => simp [List.replicate_succ]
  rw [Format.needDouble, if_pos, hsame]
  simp [Format.isNumeric]

/-- **A column of written integers with 64 bits holds these integers**, whatever the width of its
table is and thus the length of its pieces. -/
theorem ofCells_writeInt (width : ℕ) (hfits : ∀ z ∈ zs, isInt64 z) :
    ofCells width (zs.map fun z ↦ (writeInt z).toList) = zs.map .whole := by
  let length := pieceLength width
  let pieces := inPieces length (zs.length / length) zs
  have hpieces : (pieces.map fun piece ↦ pieceOf (piece.map fun z ↦ (writeInt z).toList))
      = pieces.map fun piece ↦ ⟨.signed, piece.map .whole⟩ :=
    List.map_congr_left fun piece hpiece ↦
      pieceOf_writeInt fun z hz ↦ hfits z (mem_of_mem_inPieces hpiece hz)
  have hjoin : ofCells width (zs.map fun z ↦ (writeInt z).toList)
      = join (pieces.map fun piece ↦ ⟨.signed, piece.map .whole⟩) := by
    rw [← hpieces]
    simp only [ofCells, List.length_map, inPieces_map, List.map_map]
    rfl
  have hformats : (pieces.map fun piece ↦ (⟨.signed, piece.map .whole⟩ : Piece)).map Piece.format
      = List.replicate pieces.length .signed := by
    rw [List.map_map]
    exact List.map_const'
  have hentries : (pieces.map fun piece ↦ (⟨.signed, piece.map .whole⟩ : Piece)).flatMap
      Piece.entries = zs.map .whole := by
    rw [List.flatMap_map, ← flatten_inPieces length (zs.length / length) zs, List.map_flatten]
    rfl
  rw [hjoin, join, hformats, needDouble_replicate_signed, hentries]
  rfl

theorem mapM_whole? (zs : List ℤ) : (zs.map Entry.whole).mapM Entry.whole? = some zs := by
  induction zs with
  | nil => rfl
  | cons z zs ih =>
    rw [List.map_cons, List.mapM_cons, ih]
    rfl

theorem numbers_whole (hfits : ∀ z ∈ zs, isInt64 z) :
    numbers (zs.map .whole) = .ok (.exact zs) := by
  rw [numbers, mapM_whole?, Option.filter_some, if_pos]
  rw [fitTogether, List.all_eq_true.mpr hfits, Bool.true_or]

end Column

/-- The degrees in a column of written integers with 64 bits are these integers. -/
theorem Sheet.degreesAt_eq_of_writeInt {sheet : Sheet} {zs : List ℤ} {i : ℕ}
    (hcolumn : sheet.column i = zs.map fun z ↦ (writeInt z).toList) (hfits : ∀ z ∈ zs, isInt64 z)
    (path name : String) : sheet.degreesAt path name i = .ok zs := by
  rw [degreesAt, columnAt, hcolumn, Column.ofCells_writeInt _ hfits, Column.numbers_whole hfits]
  rfl

end DegreeGraph
