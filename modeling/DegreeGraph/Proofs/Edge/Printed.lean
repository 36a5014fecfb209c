import DegreeGraph.Command.Session
import DegreeGraph.Proofs.Number.Decimal

/-!
# Printed edges are read back

Edges are printed one to a line, as two numbers with a space between them. `readEdges?` reads such
lines, and it gives back what was printed (`readEdges?_edgeLines`). The edges of a realization are
printed in ascending order, and since each is there once, every line is strictly behind the one
before (`Realization.pairwise_edges`).
-/

namespace DegreeGraph

open DegreeGraph.Number DegreeGraph.Text

variable {e : Edge} {edges : List Edge} {s : List Char} {n : ℕ} {c : Char}

/-! ## Reading -/

/-- The number that a run of digits denotes, however long the run is. -/
def readDigits? (s : List Char) : Option ℕ := (literalDigits? false s).map ofDigits

/-- The edge on a line. -/
def readEdge? (line : List Char) : Option Edge :=
  match piecesBetween ' ' line with
  | [a, b] =>
    match readDigits? a, readDigits? b with
    | some u, some v => some (u, v)
    | _, _ => none
  | _ => none

/-- The edges on lines, behind the last of which there is nothing. -/
def readEdgeLines? : List (List Char) → Option (List Edge)
  | [] => none
  | [rest] => if rest.isEmpty then some [] else none
  | line :: lines =>
    match readEdge? line, readEdgeLines? lines with
    | some e, some edges => some (e :: edges)
    | _, _ => none

/-- The edges in a text whose lines are ended by line feeds. -/
def readEdges? (text : String) : Option (List Edge) :=
  readEdgeLines? (piecesBetween '\n' text.toList)

/-! ## What is printed -/

/-- The lines of edges. -/
def edgeLines : List Edge → String
  | [] => ""
  | e :: rest => edgeText e ++ "\n" ++ edgeLines rest

theorem readDigits?_toDigits (n : ℕ) : readDigits? (Nat.toDigits 10 n) = some n := by
  rw [readDigits?, literalDigits?_toDigits, Option.map_some, ofDigits_toDigits]

theorem notMem_toDigits (hc : c.isDigit = false) : c ∉ Nat.toDigits 10 n := by
  intro hmem
  have hdigit : c.isDigit = true := Nat.isDigit_of_mem_toDigits (by decide) le_rfl hmem
  exact Bool.false_ne_true (hc.symm.trans hdigit)

theorem toList_edgeText (e : Edge) :
    (edgeText e).toList = Nat.toDigits 10 e.1 ++ ' ' :: Nat.toDigits 10 e.2 := by
  have hwritten (n : ℕ) : (toString n).toList = Nat.toDigits 10 n := Nat.toList_repr
  rw [edgeText, String.toList_append, String.toList_append, hwritten, hwritten, List.append_assoc]
  rfl

theorem readEdge?_edgeText (e : Edge) : readEdge? (edgeText e).toList = some e := by
  have hpieces : piecesBetween ' ' (edgeText e).toList
      = [Nat.toDigits 10 e.1, Nat.toDigits 10 e.2] := by
    rw [toList_edgeText, piecesBetween_append (notMem_toDigits (by decide)),
      piecesBetween_eq_singleton (notMem_toDigits (by decide))]
  rw [readEdge?, hpieces]
  simp only [readDigits?_toDigits]

theorem newline_notMem_edgeText (e : Edge) : '\n' ∉ (edgeText e).toList := by
  rw [toList_edgeText, List.mem_append, List.mem_cons]
  rintro (hfirst | hspace | hsecond)
  · exact notMem_toDigits (by decide) hfirst
  · exact absurd hspace (by decide)
  · exact notMem_toDigits (by decide) hsecond

/-- **Edges are read back from their lines.** -/
theorem readEdges?_edgeLines (edges : List Edge) : readEdges? (edgeLines edges) = some edges := by
  induction edges with
  | nil => rfl
  | cons e edges ih =>
    have hlines : (edgeLines (e :: edges)).toList
        = (edgeText e).toList ++ '\n' :: (edgeLines edges).toList := by
      rw [edgeLines, String.toList_append, String.toList_append, List.append_assoc]
      rfl
    -- The piece behind the last line end is always there, so this line is not the last piece.
    have hlater : piecesBetween '\n' (edgeLines edges).toList ≠ [] := by
      rw [← List.length_pos_iff, length_piecesBetween]
      exact Nat.succ_pos _
    rw [readEdges?] at ih ⊢
    rw [hlines, piecesBetween_append (newline_notMem_edgeText e), readEdgeLines?,
      readEdge?_edgeText, ih]
    exact hlater

/-- A line that is not ended is not read. -/
example : readEdges? "0 1\n0 2" = none := by decide

/-! ## The order of the lines -/

theorem edgeAtMost_iff {e f : Edge} : edgeAtMost e f = true ↔ toLex e ≤ toLex f := by
  rw [edgeAtMost, Prod.Lex.toLex_le_toLex, Bool.or_eq_true, Bool.and_eq_true, decide_eq_true_iff,
    decide_eq_true_iff, beq_iff_eq]

theorem Realization.pairwise_edges {r : Realization} (h : r.edges.Nodup) :
    r.edges.Pairwise fun e f ↦ toLex e < toLex f := by
  have hsorted : r.edges.Pairwise fun e f ↦ edgeAtMost e f = true := by
    apply pairwise_sortedBy
    · intro e f
      rw [Bool.or_eq_true, edgeAtMost_iff, edgeAtMost_iff]
      exact le_total _ _
    · intro e f g hef hfg
      exact edgeAtMost_iff.mpr ((edgeAtMost_iff.mp hef).trans (edgeAtMost_iff.mp hfg))
  refine (hsorted.and h).imp ?_
  rintro e f ⟨hle, hne⟩
  exact lt_of_le_of_ne (edgeAtMost_iff.mp hle) fun heq ↦ hne (toLex_inj.mp heq)

end DegreeGraph
