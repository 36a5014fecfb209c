import DegreeGraph.Proofs.Text.Splitting

/-!
# The runs of a text

What is cut out of a text is said here without the functions that cut. The core of a text is what
is left if characters of a class are dropped from its ends as long as there are any (`IsCore`). A
text has runs if it consists of them and of gaps, which hold separators only and are nowhere empty
but at the ends (`HasRuns`).

Both relations give exactly one answer, and it is the one that is computed (`isCore_iff`,
`hasRuns_iff`). So a text may be taken apart by its layout, and a layout may be read off a text.
-/

namespace DegreeGraph.Text

variable {drop separates : Char → Bool} {c : Char} {s core gap front back token : List Char}
  {tokens : List (List Char)}

/-! ## Cores -/

/-- What is left of a text if the characters of a class are dropped from its ends. -/
structure IsCore (drop : Char → Bool) (s core : List Char) : Prop where
  around : ∃ left right, s = left ++ core ++ right ∧ (∀ c ∈ left, drop c = true)
    ∧ ∀ c ∈ right, drop c = true
  head : ∀ c ∈ core.head?, drop c = false
  last : ∀ c ∈ core.getLast?, drop c = false

theorem dropWhile_eq_self_of_head (h : ∀ c ∈ s.head?, drop c = false) : s.dropWhile drop = s := by
  cases s with
  | nil => rfl
  | cons c s => exact List.dropWhile_cons_of_neg (Bool.eq_false_iff.mp (h c rfl))

theorem head_dropWhile (s : List Char) : ∀ c ∈ (s.dropWhile drop).head?, drop c = false := by
  intro c hc
  have hnot := List.head?_dropWhile_not drop s
  rw [Option.mem_def.mp hc] at hnot
  exact hnot

theorem isCore_trimBy (drop : Char → Bool) (s : List Char) : IsCore drop s (trimBy drop s) := by
  set rest := s.dropWhile drop
  have hsplit : rest = trimBy drop s ++ (rest.reverse.takeWhile drop).reverse := by
    rw [trimBy, ← List.reverse_append, List.takeWhile_append_dropWhile, List.reverse_reverse]
  refine ⟨⟨s.takeWhile drop, (rest.reverse.takeWhile drop).reverse, ?_, ?_, ?_⟩, ?_, ?_⟩
  · rw [List.append_assoc, ← hsplit, List.takeWhile_append_dropWhile]
  · exact fun c hc ↦ List.mem_takeWhile_imp hc
  · exact fun c hc ↦ List.mem_takeWhile_imp (List.mem_reverse.mp hc)
  · intro c hc
    -- The core begins where `rest` begins, unless it is empty.
    refine head_dropWhile s c ?_
    change c ∈ rest.head?
    rw [hsplit, List.head?_append, Option.mem_def.mp hc]
    rfl
  · intro c hc
    rw [trimBy, List.getLast?_reverse] at hc
    exact head_dropWhile rest.reverse c hc

theorem IsCore.trimBy_eq (h : IsCore drop s core) : trimBy drop s = core := by
  obtain ⟨⟨left, right, rfl, hleft, hright⟩, hhead, hlast⟩ := h
  have hreverse : ∀ c ∈ right.reverse, drop c = true := fun c hc ↦ hright c (List.mem_reverse.mp hc)
  rw [trimBy, List.append_assoc, List.dropWhile_append_of_pos hleft]
  cases core with
  | nil =>
    rw [List.nil_append, List.dropWhile_eq_nil_iff.mpr hright]
    rfl
  | cons d core =>
    have hstays : ∀ c ∈ (d :: core ++ right).head?, drop c = false := hhead
    have hends : ∀ c ∈ (d :: core).reverse.head?, drop c = false := by
      rw [List.head?_reverse]
      exact hlast
    rw [dropWhile_eq_self_of_head hstays, List.reverse_append,
      List.dropWhile_append_of_pos hreverse, dropWhile_eq_self_of_head hends, List.reverse_reverse]

/-- **A text has one core, and it is what trimming leaves.** -/
theorem isCore_iff : IsCore drop s core ↔ trimBy drop s = core :=
  ⟨IsCore.trimBy_eq, fun h ↦ h ▸ isCore_trimBy drop s⟩

/-- Characters of the class around a text are no part of its core. -/
theorem IsCore.surrounded {left right : List Char} (h : IsCore drop s core)
    (hleft : ∀ c ∈ left, drop c = true) (hright : ∀ c ∈ right, drop c = true) :
    IsCore drop (left ++ s ++ right) core := by
  obtain ⟨⟨left', right', rfl, hleft', hright'⟩, hhead, hlast⟩ := h
  refine ⟨⟨left ++ left', right' ++ right, ?_, ?_, ?_⟩, hhead, hlast⟩
  · simp only [List.append_assoc]
  · exact List.forall_mem_append.mpr ⟨hleft, hleft'⟩
  · exact List.forall_mem_append.mpr ⟨hright', hright⟩

theorem trimBy_surrounded {left right : List Char} (hleft : ∀ c ∈ left, drop c = true)
    (hright : ∀ c ∈ right, drop c = true) (s : List Char) :
    trimBy drop (left ++ s ++ right) = trimBy drop s :=
  ((isCore_trimBy drop s).surrounded hleft hright).trimBy_eq

/-- Characters that stay shield what is between them: only what is in the middle is dropped from,
and that only at an end which is not shielded. -/
theorem exists_dropWhile_middle (hfront : ∀ c ∈ front, drop c = false)
    (hback : ∀ c ∈ back, drop c = false) (s : List Char) :
    ∃ gap rest, s = gap ++ rest ∧ (∀ c ∈ gap, drop c = true)
      ∧ (front ++ s ++ back).dropWhile drop = front ++ rest ++ back := by
  cases front with
  | cons d front =>
    refine ⟨[], s, rfl, List.forall_mem_nil _, ?_⟩
    exact List.dropWhile_cons_of_neg (Bool.eq_false_iff.mp (hfront d List.mem_cons_self))
  | nil =>
    refine ⟨s.takeWhile drop, s.dropWhile drop, List.takeWhile_append_dropWhile.symm,
      fun c hc ↦ List.mem_takeWhile_imp hc, ?_⟩
    induction s with
    | nil => exact dropWhile_eq_self hback
    | cons c s ih =>
      by_cases hc : drop c = true
      · simpa only [List.nil_append, List.cons_append, List.dropWhile_cons_of_pos hc] using ih
      · simp only [List.nil_append, List.cons_append, List.dropWhile_cons_of_neg hc]

theorem exists_trimBy_middle (hfront : ∀ c ∈ front, drop c = false)
    (hback : ∀ c ∈ back, drop c = false) (s : List Char) :
    ∃ left rest right, s = left ++ rest ++ right ∧ (∀ c ∈ left, drop c = true)
      ∧ (∀ c ∈ right, drop c = true)
      ∧ trimBy drop (front ++ s ++ back) = front ++ rest ++ back := by
  obtain ⟨left, middle, rfl, hleft, hfirst⟩ := exists_dropWhile_middle hfront hback s
  have hreverse {t : List Char} (h : ∀ c ∈ t, drop c = false) : ∀ c ∈ t.reverse, drop c = false :=
    fun c hc ↦ h c (List.mem_reverse.mp hc)
  obtain ⟨right, rest, hmiddle, hright, hsecond⟩ :=
    exists_dropWhile_middle (hreverse hback) (hreverse hfront) middle.reverse
  refine ⟨left, rest.reverse, right.reverse, ?_, hleft,
    fun c hc ↦ hright c (List.mem_reverse.mp hc), ?_⟩
  · rw [List.append_assoc, ← List.reverse_append, ← hmiddle, List.reverse_reverse]
  · have hturned : (front ++ middle ++ back).reverse
        = back.reverse ++ middle.reverse ++ front.reverse := by
      simp only [List.reverse_append, List.append_assoc]
    rw [trimBy, hfirst, hturned, hsecond]
    simp only [List.reverse_append, List.reverse_reverse, List.append_assoc]

/-! ## Runs -/

/-- A text consists of tokens without separators and of gaps of separators, which are empty at most
in front of the first token and behind the last. -/
inductive HasRuns (separates : Char → Bool) : List Char → List (List Char) → Prop
  /-- There is nothing but a gap. -/
  | gap {gap : List Char} (hgap : ∀ c ∈ gap, separates c = true) : HasRuns separates gap []
  /-- Behind a gap there is a token, which ends at a separator or where the text does. -/
  | token {gap token rest : List Char} {tokens : List (List Char)}
    (hgap : ∀ c ∈ gap, separates c = true) (hne : token ≠ [])
    (htoken : ∀ c ∈ token, separates c = false) (hend : ∀ c ∈ rest.head?, separates c = true)
    (hrest : HasRuns separates rest tokens) :
    HasRuns separates (gap ++ token ++ rest) (token :: tokens)

theorem runsFrom_gap (h : ∀ c ∈ gap, separates c = true) (run : List Char) :
    runsFrom separates run gap = closeRun run [] := by
  induction gap generalizing run with
  | nil => rfl
  | cons c gap ih =>
    rw [runsFrom, if_pos (h c List.mem_cons_self), ih fun d hd ↦ h d (List.mem_cons_of_mem c hd)]
    rfl

theorem runsBetween_cons (hc : separates c = true) (s : List Char) :
    runsBetween separates (c :: s) = runsBetween separates s := by
  rw [runsBetween, runsFrom, if_pos hc]
  rfl

/-- A gap in front of a text is no part of its runs. -/
theorem runsBetween_gap_append (h : ∀ c ∈ gap, separates c = true) (s : List Char) :
    runsBetween separates (gap ++ s) = runsBetween separates s := by
  induction gap with
  | nil => rfl
  | cons c gap ih =>
    rw [List.cons_append, runsBetween_cons (h c List.mem_cons_self),
      ih fun d hd ↦ h d (List.mem_cons_of_mem c hd)]

/-- A gap behind a text is no part of its runs. -/
theorem runsBetween_append_gap (h : ∀ c ∈ gap, separates c = true) (s : List Char) :
    runsBetween separates (s ++ gap) = runsBetween separates s := by
  have hrun (run : List Char) : runsFrom separates run (s ++ gap) = runsFrom separates run s := by
    induction s generalizing run with
    | nil => exact runsFrom_gap h run
    | cons c s ih =>
      rw [List.cons_append, runsFrom, runsFrom]
      split
      · rw [ih]
      · exact ih _
  exact hrun []

theorem HasRuns.runsBetween_eq (h : HasRuns separates s tokens) :
    runsBetween separates s = tokens := by
  induction h with
  | gap hgap => exact runsFrom_gap hgap []
  | @token gap token rest tokens hgap hne htoken hend _ ih =>
    rw [List.append_assoc, runsBetween_gap_append hgap]
    cases rest with
    | nil =>
      obtain rfl : [] = tokens := ih
      rw [List.append_nil, runsBetween_token htoken hne]
    | cons c rest =>
      have hc : separates c = true := hend c rfl
      rw [runsBetween_append htoken hne hc, ← runsBetween_cons hc, ih]

theorem HasRuns.separates_eq_false (h : HasRuns separates s tokens) (htoken : token ∈ tokens) :
    ∀ c ∈ token, separates c = false := by
  induction h with
  | gap => cases htoken
  | token _ _ hfirst _ _ ih =>
    rcases List.mem_cons.mp htoken with rfl | hlater
    · exact hfirst
    · exact ih hlater

/-- A separator in front of a text makes its first gap longer. -/
theorem HasRuns.cons_separator (hc : separates c = true) (h : HasRuns separates s tokens) :
    HasRuns separates (c :: s) tokens := by
  cases h with
  | gap hgap => exact .gap (List.forall_mem_cons.mpr ⟨hc, hgap⟩)
  | token hgap hne htoken hend hrest =>
    exact .token (List.forall_mem_cons.mpr ⟨hc, hgap⟩) hne htoken hend hrest

/-- Any other character in front of a text begins a token, which is the first one of the text if
there is no gap in between. -/
theorem HasRuns.cons_other (hc : separates c = false) (h : HasRuns separates s tokens) :
    ∃ tokens', HasRuns separates (c :: s) tokens' := by
  have hsingle : ∀ d ∈ [c], separates d = false := List.forall_mem_singleton.mpr hc
  have hnone : ∀ d ∈ ([] : List Char), separates d = true := List.forall_mem_nil _
  cases h with
  | gap hgap =>
    have hend : ∀ d ∈ s.head?, separates d = true := fun d hd ↦ hgap d (List.mem_of_mem_head? hd)
    exact ⟨_, .token hnone (List.cons_ne_nil c []) hsingle hend (.gap hgap)⟩
  | @token gap token rest tokens hgap hne htoken hend hrest =>
    cases gap with
    | nil =>
      exact ⟨_, .token hnone (List.cons_ne_nil c token) (List.forall_mem_cons.mpr ⟨hc, htoken⟩)
        hend hrest⟩
    | cons d gap =>
      have hfirst : ∀ e ∈ (d :: gap ++ token ++ rest).head?, separates e = true := by
        rintro e ⟨⟩
        exact hgap d List.mem_cons_self
      exact ⟨_, .token hnone (List.cons_ne_nil c []) hsingle hfirst
        (.token hgap hne htoken hend hrest)⟩

theorem exists_hasRuns (separates : Char → Bool) (s : List Char) :
    ∃ tokens, HasRuns separates s tokens := by
  induction s with
  | nil => exact ⟨[], .gap (List.forall_mem_nil _)⟩
  | cons c s ih =>
    obtain ⟨tokens, h⟩ := ih
    by_cases hc : separates c = true
    · exact ⟨tokens, h.cons_separator hc⟩
    · exact h.cons_other (Bool.eq_false_iff.mpr hc)

/-- **A text has its runs in exactly one way, and they are those that cutting gives.** -/
theorem hasRuns_iff : HasRuns separates s tokens ↔ runsBetween separates s = tokens := by
  constructor
  · exact HasRuns.runsBetween_eq
  · rintro rfl
    obtain ⟨tokens, h⟩ := exists_hasRuns separates s
    rwa [h.runsBetween_eq]

end DegreeGraph.Text
