import DegreeGraph.Proofs.Degrees.Runs
import DegreeGraph.Proofs.Stepwise

/-!
# Every layout of a degree list is read back

A list of degrees may be laid out in many ways: with any separators between the numbers, and with
separators, brackets and blanks around them, in this order (`DegreeLayout`). The reader gives back
the list that was laid out, however that was done, as long as the numbers are not too long for it
(`DegreeLayout.parseDegrees_text`).

## What the brackets shield

Blanks are dropped from the ends of a text before brackets are. Where there is a bracket, this ends
at once. Where there is none, some of the separators next to the numbers may be dropped as well, but
never a number. In both cases brackets are all that then stands outside of separators and numbers.
-/

namespace DegreeGraph

open DegreeGraph.Number DegreeGraph.Text

variable {c : Char} {s left right : List Char} {tokens : List (List Char)}

/-! ## Layouts -/

/-- A way to write down degrees. -/
structure DegreeLayout where
  /-- The blanks on the far left and on the far right. -/
  blanks : List Char × List Char
  /-- The brackets inside of the blanks, on the left and on the right. -/
  brackets : List Char × List Char
  /-- The separators in front of the degrees. -/
  lead : List Char
  /-- The degrees, each with the separators behind it. -/
  entries : List (ℤ × List Char)
  isBlank_of_mem : ∀ c ∈ blanks.1 ++ blanks.2, isBlank c = true
  isBracket_of_mem : ∀ c ∈ brackets.1 ++ brackets.2, isBracket c = true
  separates_lead : ∀ c ∈ lead, separatesDegrees c = true
  separates_gap : ∀ e ∈ entries, ∀ c ∈ e.2, separatesDegrees c = true
  /-- Only behind the last degree there may be nothing. -/
  gap_ne_nil : ∀ e ∈ entries.dropLast, e.2 ≠ []
  natAbs_lt : ∀ e ∈ entries, e.1.natAbs < 10 ^ digitLimit

namespace DegreeLayout

/-- Degrees, each with the separators behind it, as they are written. -/
def spread (entries : List (ℤ × List Char)) : List Char :=
  entries.flatMap fun e ↦ (writeInt e.1).toList ++ e.2

/-- The text of a layout. -/
def text (l : DegreeLayout) : String :=
  String.ofList (l.blanks.1 ++ (l.brackets.1 ++ (l.lead ++ spread l.entries) ++ l.brackets.2)
    ++ l.blanks.2)

/-- The degrees that are laid out. -/
def degrees (l : DegreeLayout) : List ℤ := l.entries.map Prod.fst

end DegreeLayout

/-! ## What is dropped -/

theorem isBlank_of_isBracket (h : isBracket c = true) : isBlank c = false := by
  simp only [isBracket, Bool.or_eq_true, beq_iff_eq] at h
  rcases h with ((rfl | rfl) | rfl) | rfl
  all_goals decide

theorem isBracket_of_separates (h : separatesDegrees c = true) : isBracket c = false := by
  refine Bool.eq_false_iff.mpr fun hbracket ↦ ?_
  rw [separatesDegrees, isBlank_of_isBracket hbracket, Bool.or_false, beq_iff_eq] at h
  subst h
  exact absurd hbracket (by decide)

theorem separatesDegrees_of_isBlank (h : isBlank c = true) : separatesDegrees c = true := by
  rw [separatesDegrees, h, Bool.or_true]

/-- What is left of a text between brackets and blanks has the runs of the text. -/
theorem degreeTokens_bracketed {blanks brackets : List Char × List Char}
    (hblanks : ∀ c ∈ blanks.1 ++ blanks.2, isBlank c = true)
    (hbrackets : ∀ c ∈ brackets.1 ++ brackets.2, isBracket c = true)
    (hs : ∀ c ∈ s, isBracket c = false) :
    degreeTokens (blanks.1 ++ (brackets.1 ++ s ++ brackets.2) ++ blanks.2)
      = runsBetween separatesDegrees s := by
  obtain ⟨hfarLeft, hfarRight⟩ := List.forall_mem_append.mp hblanks
  obtain ⟨hleft, hright⟩ := List.forall_mem_append.mp hbrackets
  have hstays {t : List Char} (ht : ∀ c ∈ t, isBracket c = true) : ∀ c ∈ t, isBlank c = false :=
    fun c hc ↦ isBlank_of_isBracket (ht c hc)
  obtain ⟨before, rest, behind, rfl, hbefore, hbehind, htrim⟩ :=
    exists_trimBy_middle (hstays hleft) (hstays hright) s
  have hrest : ∀ c ∈ rest, isBracket c = false := fun c hc ↦
    hs c (List.mem_append_left _ (List.mem_append_right _ hc))
  have hgap {t : List Char} (ht : ∀ c ∈ t, isBlank c = true) : ∀ c ∈ t, separatesDegrees c = true :=
    fun c hc ↦ separatesDegrees_of_isBlank (ht c hc)
  rw [degreeTokens, degreeListBody, trimBy_surrounded hfarLeft hfarRight, htrim,
    trimBy_surrounded hleft hright, trimBy_eq_self hrest,
    runsBetween_append_gap (hgap hbehind), runsBetween_gap_append (hgap hbefore)]

namespace DegreeLayout

variable {entries : List (ℤ × List Char)}

/-! ## What is read -/

/-- Degrees with separators between them are the runs. -/
theorem hasRuns_spread {gap : List Char} (hgap : ∀ c ∈ gap, separatesDegrees c = true)
    (hgaps : ∀ e ∈ entries, ∀ c ∈ e.2, separatesDegrees c = true)
    (hne : ∀ e ∈ entries.dropLast, e.2 ≠ []) :
    HasRuns separatesDegrees (gap ++ spread entries)
      ((entries.map Prod.fst).map fun d ↦ (writeInt d).toList) := by
  induction entries generalizing gap with
  | nil =>
    rw [spread, List.flatMap_nil, List.append_nil]
    exact .gap hgap
  | cons e entries ih =>
    obtain ⟨hfirst, hlater⟩ := List.forall_mem_cons.mp hgaps
    have hrest := ih hfirst hlater fun e' he' ↦ hne e' (by
      cases entries with
      | nil => cases he'
      | cons next entries => exact List.mem_cons_of_mem e he')
    have hend : ∀ c ∈ (e.2 ++ spread entries).head?, separatesDegrees c = true := by
      intro c hc
      cases hsep : e.2 with
      | cons d gap =>
        rw [hsep] at hc hfirst
        obtain rfl : d = c := Option.some.inj hc
        exact hfirst d List.mem_cons_self
      | nil =>
        -- Nothing is behind this degree, so it is the last one.
        cases entries with
        | nil =>
          rw [hsep] at hc
          cases hc
        | cons next entries => exact absurd hsep (hne e List.mem_cons_self)
    have hspread : gap ++ spread (e :: entries)
        = gap ++ (writeInt e.1).toList ++ (e.2 ++ spread entries) := by
      simp only [spread, List.flatMap_cons, List.append_assoc]
    rw [hspread]
    exact .token hgap (toList_writeInt_ne_nil e.1) (fun c ↦ separatesDegrees_of_mem_writeInt) hend
      hrest

theorem isBracket_of_mem_spread (hgaps : ∀ e ∈ entries, ∀ c ∈ e.2, separatesDegrees c = true)
    (hc : c ∈ spread entries) : isBracket c = false := by
  obtain ⟨e, he, hc⟩ := List.mem_flatMap.mp hc
  rcases List.mem_append.mp hc with hdigit | hgap
  · exact isBracket_of_mem_writeInt hdigit
  · exact isBracket_of_separates (hgaps e he c hgap)

theorem degreeTokens_text (l : DegreeLayout) :
    degreeTokens l.text.toList = l.degrees.map fun d ↦ (writeInt d).toList := by
  have hinner : ∀ c ∈ l.lead ++ spread l.entries, isBracket c = false :=
    List.forall_mem_append.mpr ⟨fun c hc ↦ isBracket_of_separates (l.separates_lead c hc),
      fun c ↦ isBracket_of_mem_spread l.separates_gap⟩
  rw [text, String.toList_ofList,
    degreeTokens_bracketed l.isBlank_of_mem l.isBracket_of_mem hinner, degrees]
  exact (hasRuns_spread l.separates_lead l.separates_gap l.gap_ne_nil).runsBetween_eq

theorem parseDegrees_text (l : DegreeLayout) : parseDegrees l.text = .ok l.degrees := by
  rw [parseDegrees, degreeTokens_text, readTokens_writeInt]
  intro d hd
  obtain ⟨e, he, rfl⟩ := List.mem_map.mp hd
  exact l.natAbs_lt e he

end DegreeLayout

/-! ## What is written again -/

theorem natAbs_lt_of_readTokens {degrees : List ℤ} (h : readTokens tokens = .ok degrees) :
    ∀ d ∈ degrees, d.natAbs < 10 ^ digitLimit := by
  induction tokens generalizing degrees with
  | nil =>
    cases h
    exact List.forall_mem_nil _
  | cons token tokens ih =>
    rw [readTokens] at h
    split at h
    · cases h
    · rename_i z hz
      obtain ⟨later, hlater, heq⟩ := Stepwise.exists_of_bind_eq_ok h
      cases heq
      exact List.forall_mem_cons.mpr ⟨natAbs_lt_of_readInt? hz, ih hlater⟩

/-- **Reading undoes writing**, whatever the layout. In particular a list that has been read is read
again when it is written with commas. -/
theorem parseDegrees_undoes_layout :
    (∀ l : DegreeLayout, parseDegrees l.text = .ok l.degrees)
      ∧ ∀ text degrees, parseDegrees text = .ok degrees →
        parseDegrees (writeDegrees degrees) = .ok degrees := by
  constructor
  · exact DegreeLayout.parseDegrees_text
  · intro text degrees h
    exact parseDegrees_writeDegrees (natAbs_lt_of_readTokens h)

/-- Two degrees with odd gaps in brackets that do not match. -/
theorem parseDegrees_undoes_layout_bracketed :
    parseDegrees "\t((\u3000-7 ,, 0,]\n" = .ok [-7, 0]
      ∧ parseDegrees (writeDegrees [-7, 0]) = .ok [-7, 0] := by
  let l : DegreeLayout :=
    { blanks := (['\t'], ['\n'])
      brackets := (['(', '('], [']'])
      lead := ['\u3000']
      entries := [(-7, [' ', ',', ',', ' ']), (0, [','])]
      isBlank_of_mem := List.all_eq_true.mp rfl
      isBracket_of_mem := List.all_eq_true.mp rfl
      separates_lead := List.all_eq_true.mp rfl
      separates_gap := List.forall_mem_cons.mpr
        ⟨List.all_eq_true.mp rfl, List.forall_mem_singleton.mpr (List.all_eq_true.mp rfl)⟩
      gap_ne_nil := by decide
      natAbs_lt := by decide +kernel }
  have hread : parseDegrees l.text = .ok [-7, 0] := parseDegrees_undoes_layout.1 l
  exact ⟨hread, parseDegrees_undoes_layout.2 _ _ hread⟩

end DegreeGraph
