import DegreeGraph.Degrees.Literal
import DegreeGraph.Proofs.Number.Decimal

/-!
# Written degree lists are read back

A written list holds only digits, minus signs and the commas between numbers. So there is nothing to
drop at its ends, its runs are the written numbers, and the reader gives back the list, as long as
its numbers are not too long for the reader (`parseDegrees_writeDegrees`). This covers the empty
list, whose text is empty.
-/

namespace DegreeGraph

open DegreeGraph.Number DegreeGraph.Text

variable {degrees : List ℤ} {c : Char} {z : ℤ}

theorem isBracket_of_isDigit (h : c.isDigit = true) : isBracket c = false := by
  obtain ⟨hle, hlt⟩ := isDigit_iff.mp h
  rw [isBracket, Bool.eq_false_iff]
  intro hbracket
  simp only [Bool.or_eq_true, beq_iff_eq] at hbracket
  rcases hbracket with ((rfl | rfl) | rfl) | rfl
  all_goals exact absurd h (by decide)

theorem isBracket_of_mem_writeInt (hc : c ∈ (writeInt z).toList) : isBracket c = false := by
  rcases eq_minus_or_isDigit_of_mem_writeInt hc with rfl | hdigit
  · decide
  · exact isBracket_of_isDigit hdigit

theorem separatesDegrees_of_mem_writeInt (hc : c ∈ (writeInt z).toList) :
    separatesDegrees c = false := by
  have hcomma : (c == ',') = false := by
    rw [beq_eq_false_iff_ne]
    rintro rfl
    rcases eq_minus_or_isDigit_of_mem_writeInt hc with heq | hdigit
    · exact absurd heq (by decide)
    · exact absurd hdigit (by decide)
  rw [separatesDegrees, hcomma, isBlank_of_mem_writeInt hc]
  rfl

theorem toList_writeDegrees (degrees : List ℤ) : (writeDegrees degrees).toList
    = [','].intercalate (degrees.map fun d ↦ (writeInt d).toList) := by
  rw [writeDegrees, String.toList_intercalate, List.map_map]
  rfl

theorem mem_writeDegrees (hc : c ∈ (writeDegrees degrees).toList) :
    c = ',' ∨ ∃ d ∈ degrees, c ∈ (writeInt d).toList := by
  rw [toList_writeDegrees] at hc
  induction degrees with
  | nil => exact absurd hc List.not_mem_nil
  | cons d degrees ih =>
    cases degrees with
    | nil =>
      rw [List.map_singleton, List.intercalate_singleton] at hc
      exact Or.inr ⟨d, List.mem_cons_self, hc⟩
    | cons next degrees =>
      rw [List.map_cons, List.map_cons, List.intercalate_cons_cons, List.append_assoc,
        List.mem_append, List.singleton_append, List.mem_cons] at hc
      rcases hc with hd | rfl | hlater
      · exact Or.inr ⟨d, List.mem_cons_self, hd⟩
      · exact Or.inl rfl
      · refine (ih hlater).imp_right ?_
        rintro ⟨e, he, hce⟩
        exact ⟨e, List.mem_cons_of_mem d he, hce⟩

/-- There is nothing to drop around a written list. -/
theorem degreeListBody_writeDegrees (degrees : List ℤ) :
    degreeListBody (writeDegrees degrees).toList = (writeDegrees degrees).toList := by
  have hblank : ∀ c ∈ (writeDegrees degrees).toList, isBlank c = false := by
    intro c hc
    rcases mem_writeDegrees hc with rfl | ⟨d, -, hd⟩
    · decide
    · exact isBlank_of_mem_writeInt hd
  have hbracket : ∀ c ∈ (writeDegrees degrees).toList, isBracket c = false := by
    intro c hc
    rcases mem_writeDegrees hc with rfl | ⟨d, -, hd⟩
    · decide
    · exact isBracket_of_mem_writeInt hd
  rw [degreeListBody, trimBy_eq_self hblank, trimBy_eq_self hbracket]

theorem degreeTokens_writeDegrees (degrees : List ℤ) :
    degreeTokens (writeDegrees degrees).toList = degrees.map fun d ↦ (writeInt d).toList := by
  rw [degreeTokens, degreeListBody_writeDegrees, toList_writeDegrees]
  apply runsBetween_intercalate (by decide)
  · intro token htoken c hc
    obtain ⟨d, -, rfl⟩ := List.mem_map.mp htoken
    exact separatesDegrees_of_mem_writeInt hc
  · intro token htoken
    obtain ⟨d, -, rfl⟩ := List.mem_map.mp htoken
    exact toList_writeInt_ne_nil d

theorem readTokens_writeInt (h : ∀ d ∈ degrees, d.natAbs < 10 ^ digitLimit) :
    readTokens (degrees.map fun d ↦ (writeInt d).toList) = .ok degrees := by
  induction degrees with
  | nil => rfl
  | cons d degrees ih =>
    rw [List.map_cons, readTokens, readInt?_writeInt (h d List.mem_cons_self)]
    simp only [ih fun e he ↦ h e (List.mem_cons_of_mem d he)]
    rfl

/-- **A written list is read as the list that was written.** -/
theorem parseDegrees_writeDegrees (h : ∀ d ∈ degrees, d.natAbs < 10 ^ digitLimit) :
    parseDegrees (writeDegrees degrees) = .ok degrees := by
  rw [parseDegrees, degreeTokens_writeDegrees, readTokens_writeInt h]

end DegreeGraph
