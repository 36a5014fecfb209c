import DegreeGraph.Proofs.Degrees.Literal
import DegreeGraph.Proofs.Number.Literal
import DegreeGraph.Proofs.Text.Runs

/-!
# Degree lists and their runs

A text without the blanks and then without the brackets around it is read run by run, where commas
and blanks end a run. Every text has such runs in exactly one way. If all of them are integer
literals, their values are the degrees, in order and one for each; otherwise the first run that is
none is what the failure names (`parseDegrees_reads_runs`).

Three readers agree here on what a blank is. A run has no blanks, so it is of no account that an
integer may have other blanks around it than a list has.
-/

namespace DegreeGraph

open DegreeGraph.Number DegreeGraph.Text

variable {s token : List Char} {tokens : List (List Char)} {degrees : List ℤ} {fault : Fault}

/-! ## Runs -/

/-- What is left of a text without outer blanks and without brackets around the rest has these
runs. -/
def HasDegreeRuns (s : List Char) (tokens : List (List Char)) : Prop :=
  ∃ unspaced body, IsCore isBlank s unspaced ∧ IsCore isBracket unspaced body
    ∧ HasRuns separatesDegrees body tokens

theorem hasDegreeRuns_iff : HasDegreeRuns s tokens ↔ degreeTokens s = tokens := by
  simp only [HasDegreeRuns, isCore_iff, hasRuns_iff]
  constructor
  · rintro ⟨_, _, rfl, rfl, hruns⟩
    exact hruns
  · intro hruns
    exact ⟨_, _, rfl, rfl, hruns⟩

theorem isBlank_of_mem_degreeTokens (htoken : token ∈ degreeTokens s) :
    ∀ c ∈ token, isBlank c = false := by
  obtain ⟨_, _, -, -, hruns⟩ := hasDegreeRuns_iff.mpr (rfl : degreeTokens s = degreeTokens s)
  intro c hc
  have hnot := hruns.separates_eq_false htoken c hc
  exact (Bool.or_eq_false_iff.mp hnot).2

/-! ## Literals -/

/-- A token is no integer literal, and all the tokens before it are. -/
def IsFirstOther (tokens : List (List Char)) (token : List Char) : Prop :=
  ∃ before after, tokens = before ++ token :: after ∧ (∀ t ∈ before, ∃ z, IsIntLiteral t z)
    ∧ ∀ z, ¬IsIntLiteral token z

theorem isFirstOther_cons {first : List Char} : IsFirstOther (first :: tokens) token ↔
    (∀ z, ¬IsIntLiteral first z) ∧ token = first
      ∨ (∃ z, IsIntLiteral first z) ∧ IsFirstOther tokens token := by
  constructor
  · rintro ⟨_ | ⟨t, before⟩, after, heq, hbefore, hother⟩
    · obtain ⟨rfl, -⟩ := List.cons.inj heq
      exact Or.inl ⟨hother, rfl⟩
    · obtain ⟨rfl, rfl⟩ := List.cons.inj heq
      obtain ⟨hfirst, hlater⟩ := List.forall_mem_cons.mp hbefore
      exact Or.inr ⟨hfirst, before, after, rfl, hlater, hother⟩
  · rintro (⟨hother, rfl⟩ | ⟨hfirst, before, after, rfl, hbefore, hother⟩)
    · exact ⟨[], tokens, rfl, List.forall_mem_nil _, hother⟩
    · exact ⟨first :: before, after, rfl, List.forall_mem_cons.mpr ⟨hfirst, hbefore⟩, hother⟩

/-- Tokens without blanks are read exactly if all are literals, and give their values. -/
theorem readTokens_eq_ok_iff (h : ∀ token ∈ tokens, ∀ c ∈ token, isBlank c = false) :
    readTokens tokens = .ok degrees ↔ List.Forall₂ IsIntLiteral tokens degrees := by
  induction tokens generalizing degrees with
  | nil =>
    rw [List.forall₂_nil_left_iff]
    exact ⟨fun hok ↦ (Except.ok.inj hok).symm, fun heq ↦ heq ▸ rfl⟩
  | cons first tokens ih =>
    obtain ⟨hfirst, hlater⟩ := List.forall_mem_cons.mp h
    rw [List.forall₂_cons_left_iff, readTokens]
    simp only [← readInt?_eq_some_iff hfirst, ← ih hlater]
    cases hread : readInt? first with
    | none => simp
    | some z =>
      cases readTokens tokens with
      | error fault => simp [bind, Except.bind]
      | ok zs => simp [bind, Except.bind, pure, Except.pure, eq_comm]

/-- Tokens without blanks are refused exactly for the first of them that is no literal. -/
theorem readTokens_eq_error_iff (h : ∀ token ∈ tokens, ∀ c ∈ token, isBlank c = false) :
    readTokens tokens = .error fault
      ↔ ∃ token, IsFirstOther tokens token ∧ fault = .notDegree (String.ofList token) := by
  induction tokens with
  | nil =>
    refine iff_of_false nofun ?_
    rintro ⟨token, ⟨before, after, heq, -⟩, -⟩
    exact List.cons_ne_nil _ _ (List.append_eq_nil_iff.mp heq.symm).2
  | cons first tokens ih =>
    obtain ⟨hfirst, hlater⟩ := List.forall_mem_cons.mp h
    simp only [isFirstOther_cons, ← readInt?_eq_some_iff hfirst]
    rw [readTokens]
    cases hread : readInt? first with
    | none => simp [eq_comm]
    | some z =>
      have hrest := ih hlater
      cases hlist : readTokens tokens with
      | error fault' =>
        rw [hlist] at hrest
        simpa [bind, Except.bind] using hrest
      | ok zs =>
        rw [hlist] at hrest
        simpa [bind, Except.bind, pure, Except.pure] using hrest

/-- **Degree lists are read by their grammar.** A text has its runs in exactly one way. It is read
exactly if each run is an integer literal, and then as their values in order. Otherwise it is
refused, and the failure names the first run that is none. -/
theorem parseDegrees_reads_runs (text : String) :
    ∃ tokens, (∀ runs, HasDegreeRuns text.toList runs ↔ runs = tokens)
      ∧ (∀ degrees, parseDegrees text = .ok degrees ↔ List.Forall₂ IsIntLiteral tokens degrees)
      ∧ ∀ fault, parseDegrees text = .error fault
        ↔ ∃ token, IsFirstOther tokens token ∧ fault = .notDegree (String.ofList token) := by
  have hblank : ∀ token ∈ degreeTokens text.toList, ∀ c ∈ token, isBlank c = false :=
    fun token ↦ isBlank_of_mem_degreeTokens
  refine ⟨degreeTokens text.toList, fun runs ↦ ?runs, fun degrees ↦ ?read, fun fault ↦ ?refused⟩
  case runs => rw [hasDegreeRuns_iff, eq_comm]
  case read => exact readTokens_eq_ok_iff hblank
  case refused => exact readTokens_eq_error_iff hblank

example : parseDegrees " [3, +1_0 ٤x] 5" = .error (.notDegree "٤x]") := rfl

end DegreeGraph
