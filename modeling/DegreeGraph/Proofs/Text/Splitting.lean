import Mathlib
import DegreeGraph.Text.Blank
import DegreeGraph.Text.Pieces

/-!
# Cutting a text undoes putting it together

Tokens that hold no separator and are not empty are the runs of the text that has one separator
between any two of them (`runsBetween_intercalate`). Between pieces every separator counts: a piece
without one, with a separator behind it, is the first piece of a text, and it may be empty
(`piecesBetween_append`).
-/

namespace DegreeGraph.Text

variable {separates : Char → Bool} {c : Char} {s token : List Char} {tokens : List (List Char)}

/-! ## Blanks -/

/-- Of the printable characters of ASCII only the space is blank. -/
theorem isBlank_eq_false (hlow : 0x20 < c.toNat) (hhigh : c.toNat < 0x85) : isBlank c = false := by
  rw [isBlank, inRanges, blankRanges, List.any_eq_false]
  intro r hr hin
  rw [Bool.and_eq_true, decide_eq_true_iff, decide_eq_true_iff] at hin
  simp only [List.mem_cons, List.not_mem_nil, or_false] at hr
  rcases hr with rfl | rfl | rfl | rfl | rfl | rfl | rfl | rfl | rfl | rfl
  all_goals
    simp only at hin
    omega

theorem dropWhile_eq_self {drop : Char → Bool} (h : ∀ c ∈ s, drop c = false) :
    s.dropWhile drop = s := by
  rw [List.dropWhile_eq_self_iff]
  intro hpos hdrop
  exact Bool.false_ne_true ((h _ (List.getElem_mem hpos)).symm.trans hdrop)

theorem trimBy_eq_self {drop : Char → Bool} (h : ∀ c ∈ s, drop c = false) : trimBy drop s = s := by
  have hreverse : ∀ c ∈ s.reverse, drop c = false := fun c hc ↦ h c (List.mem_reverse.mp hc)
  rw [trimBy, dropWhile_eq_self h, dropWhile_eq_self hreverse, List.reverse_reverse]

/-! ## Runs -/

/-- A token without separators only makes the run longer that has begun. -/
theorem runsFrom_append (h : ∀ c ∈ token, separates c = false) (run s : List Char) :
    runsFrom separates run (token ++ s) = runsFrom separates (token.reverse ++ run) s := by
  induction token generalizing run with
  | nil => rfl
  | cons c token ih =>
    have hc : ¬separates c = true := Bool.eq_false_iff.mp (h c List.mem_cons_self)
    rw [List.cons_append, runsFrom, if_neg hc, ih fun d hd ↦ h d (List.mem_cons_of_mem c hd),
      List.reverse_cons, List.append_assoc]
    rfl

theorem closeRun_reverse (hne : token ≠ []) (later : List (List Char)) :
    closeRun token.reverse later = token :: later := by
  have hrun : ¬token.reverse.isEmpty = true := by
    rw [List.isEmpty_reverse, List.isEmpty_iff]
    exact hne
  rw [closeRun, if_neg hrun, List.reverse_reverse]

theorem runsBetween_token (h : ∀ c ∈ token, separates c = false) (hne : token ≠ []) :
    runsBetween separates token = [token] := by
  have hrun := runsFrom_append h [] []
  rw [List.append_nil, List.append_nil] at hrun
  rw [runsBetween, hrun, runsFrom, closeRun_reverse hne]

theorem runsBetween_append (h : ∀ c ∈ token, separates c = false) (hne : token ≠ [])
    (hc : separates c = true) (s : List Char) :
    runsBetween separates (token ++ c :: s) = token :: runsBetween separates s := by
  rw [runsBetween, runsFrom_append h, runsFrom, if_pos hc, List.append_nil, closeRun_reverse hne,
    runsBetween]

/-- **Tokens with a separator between any two of them are the runs of the text.** -/
theorem runsBetween_intercalate (hc : separates c = true)
    (h : ∀ token ∈ tokens, ∀ c ∈ token, separates c = false) (hne : ∀ token ∈ tokens, token ≠ []) :
    runsBetween separates ([c].intercalate tokens) = tokens := by
  induction tokens with
  | nil => rfl
  | cons token tokens ih =>
    have htoken := h token List.mem_cons_self
    have hfull := hne token List.mem_cons_self
    cases tokens with
    | nil =>
      -- Behind the last token there is no separator.
      rw [List.intercalate_singleton, runsBetween_token htoken hfull]
    | cons next tokens =>
      rw [List.intercalate_cons_cons, List.append_assoc, List.singleton_append,
        runsBetween_append htoken hfull hc]
      congr 1
      exact ih (fun t ht ↦ h t (List.mem_cons_of_mem token ht))
        fun t ht ↦ hne t (List.mem_cons_of_mem token ht)

/-! ## Pieces -/

theorem piecesBetween_eq_singleton (h : c ∉ s) : piecesBetween c s = [s] := by
  induction s with
  | nil => rfl
  | cons d s ih =>
    have hd : ¬(d == c) = true := fun heq ↦ h (beq_iff_eq.mp heq ▸ List.mem_cons_self)
    rw [piecesBetween, if_neg hd, ih fun hc ↦ h (List.mem_cons_of_mem d hc)]

/-- A piece ends at the first separator behind it. -/
theorem piecesBetween_append {piece : List Char} (h : c ∉ piece) (s : List Char) :
    piecesBetween c (piece ++ c :: s) = piece :: piecesBetween c s := by
  induction piece with
  | nil => rw [List.nil_append, piecesBetween, if_pos (beq_self_eq_true c)]
  | cons d piece ih =>
    have hd : ¬(d == c) = true := fun heq ↦ h (beq_iff_eq.mp heq ▸ List.mem_cons_self)
    rw [List.cons_append, piecesBetween, if_neg hd, ih fun hc ↦ h (List.mem_cons_of_mem d hc)]

/-- What is put behind a text goes to its last piece, if there is no separator in it. -/
theorem exists_piecesBetween_append (c : Char) (s : List Char) :
    ∃ front last, ∀ t, c ∉ t → piecesBetween c (s ++ t) = front ++ [last ++ t] := by
  induction s with
  | nil => exact ⟨[], [], fun t ht ↦ piecesBetween_eq_singleton ht⟩
  | cons d s ih =>
    obtain ⟨front, last, hpieces⟩ := ih
    by_cases hd : (d == c) = true
    · refine ⟨[] :: front, last, fun t ht ↦ ?_⟩
      rw [List.cons_append, piecesBetween, if_pos hd, hpieces t ht]
      rfl
    cases front with
    | nil =>
      refine ⟨[], d :: last, fun t ht ↦ ?_⟩
      rw [List.cons_append, piecesBetween, if_neg hd, hpieces t ht]
      rfl
    | cons piece front =>
      refine ⟨(d :: piece) :: front, last, fun t ht ↦ ?_⟩
      rw [List.cons_append, piecesBetween, if_neg hd, hpieces t ht]
      rfl

end DegreeGraph.Text
