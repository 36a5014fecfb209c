/-!
# Pieces between separators

A text is cut at every separator; between two neighbours, and before the first and after the last, stands
a piece, which may be empty. So a text with `n` separators has `n + 1` pieces.
-/

namespace DegreeGraph.Text

/-- The pieces of a text between separators. -/
def piecesBetween (separator : Char) : List Char → List (List Char)
  | [] => [[]]
  | c :: rest =>
    if c == separator then [] :: piecesBetween separator rest
    else match piecesBetween separator rest with
      | [] => [[c]]
      | piece :: pieces => (c :: piece) :: pieces

theorem length_piecesBetween (separator : Char) (s : List Char) :
    (piecesBetween separator s).length = s.count separator + 1 := by
  induction s with
  | nil => rfl
  | cons c rest ih =>
    rw [piecesBetween]
    by_cases h : c = separator
    · subst h
      simp [ih]
    · simp only [beq_iff_eq, h, if_false, List.count_cons, Nat.add_zero]
      split
      · rename_i hnil
        simp [hnil] at ih
      · rename_i piece pieces hcons
        simpa [hcons] using ih

end DegreeGraph.Text
