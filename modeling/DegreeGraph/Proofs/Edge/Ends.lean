import Mathlib
import DegreeGraph.Edge.Ends

/-!
# Edges between integers

Integers always have an order, so a collection of edges between integers is never refused: each edge
is turned so that its lesser end comes first, and then all are sorted (`sortedEnds_ints`). The answer
is a list of pairs (`sortedPairs`), which is in lexicographic order and depends only on the unordered
pairs that were given (`sortedPairs_eq_of_perm`).
-/

namespace DegreeGraph

variable {pairs others : List (ℤ × ℤ)} {p q : ℤ × ℤ}

/-! ## Pairs in order -/

/-- A pair with its lesser entry first. -/
def inOrder (p : ℤ × ℤ) : ℤ × ℤ := (min p.1 p.2, max p.1 p.2)

theorem inOrder_fst_le_snd (p : ℤ × ℤ) : (inOrder p).1 ≤ (inOrder p).2 := min_le_max

theorem inOrder_eq_or_eq_swap (p : ℤ × ℤ) : inOrder p = p ∨ inOrder p = p.swap := by
  rcases le_total p.1 p.2 with hle | hle
  · exact Or.inl (Prod.ext (min_eq_left hle) (max_eq_right hle))
  · exact Or.inr (Prod.ext (min_eq_right hle) (max_eq_left hle))

/-- The pairs without the order of their entries. -/
def unordered (pairs : List (ℤ × ℤ)) : List (Sym2 ℤ) := pairs.map fun p ↦ s(p.1, p.2)

theorem map_inOrder (pairs : List (ℤ × ℤ)) :
    pairs.map inOrder = (unordered pairs).map fun e ↦ (e.inf, e.sup) := by
  rw [unordered, List.map_map]
  rfl

/-- One pair is not behind another in lexicographic order. -/
def pairAtMost (p q : ℤ × ℤ) : Bool := decide (toLex p ≤ toLex q)

theorem pairAtMost_total (p q : ℤ × ℤ) : pairAtMost p q || pairAtMost q p := by
  rw [pairAtMost, pairAtMost, Bool.or_eq_true, decide_eq_true_iff, decide_eq_true_iff]
  exact le_total _ _

theorem pairAtMost_trans (p q r : ℤ × ℤ) (hpq : pairAtMost p q) (hqr : pairAtMost q r) :
    pairAtMost p r :=
  decide_eq_true ((of_decide_eq_true hpq).trans (of_decide_eq_true hqr))

theorem pairAtMost_antisymm (p q : ℤ × ℤ) (hpq : pairAtMost p q) (hqp : pairAtMost q p) : p = q :=
  toLex_inj.mp ((of_decide_eq_true hpq).antisymm (of_decide_eq_true hqp))

/-- Pairs, each in order, in lexicographic order. -/
def sortedPairs (pairs : List (ℤ × ℤ)) : List (ℤ × ℤ) :=
  sortedBy pairAtMost (pairs.map inOrder)

theorem perm_sortedPairs (pairs : List (ℤ × ℤ)) : (sortedPairs pairs).Perm (pairs.map inOrder) :=
  perm_sortedBy _ _

@[simp] theorem length_sortedPairs (pairs : List (ℤ × ℤ)) :
    (sortedPairs pairs).length = pairs.length := by
  rw [(perm_sortedPairs pairs).length_eq, List.length_map]

theorem unordered_map_inOrder (pairs : List (ℤ × ℤ)) :
    unordered (pairs.map inOrder) = unordered pairs := by
  rw [unordered, List.map_map]
  refine List.map_congr_left fun p _ ↦ ?_
  rw [Function.comp_apply]
  rcases inOrder_eq_or_eq_swap p with hsame | hswap
  · rw [hsame]
  · rw [hswap]
    exact Sym2.eq_swap

theorem perm_unordered_sortedPairs (pairs : List (ℤ × ℤ)) :
    (unordered (sortedPairs pairs)).Perm (unordered pairs) := by
  have hperm := (perm_sortedPairs pairs).map fun p ↦ s(p.1, p.2)
  rwa [← unordered, ← unordered, unordered_map_inOrder] at hperm

theorem pairwise_sortedPairs (pairs : List (ℤ × ℤ)) :
    (sortedPairs pairs).Pairwise fun p q ↦ toLex p ≤ toLex q :=
  (pairwise_sortedBy pairAtMost_total pairAtMost_trans _).imp of_decide_eq_true

theorem fst_le_snd_of_mem_sortedPairs (hp : p ∈ sortedPairs pairs) : p.1 ≤ p.2 := by
  obtain ⟨q, -, rfl⟩ := List.mem_map.mp ((perm_sortedPairs pairs).mem_iff.mp hp)
  exact inOrder_fst_le_snd q

/-- **Neither the order of pairs nor that of their entries makes a difference.** -/
theorem sortedPairs_eq_of_perm (h : (unordered pairs).Perm (unordered others)) :
    sortedPairs pairs = sortedPairs others := by
  refine sortedBy_eq_of_perm pairAtMost_total pairAtMost_trans pairAtMost_antisymm ?_
  rw [map_inOrder, map_inOrder]
  exact h.map _

/-! ## Pairs as ends -/

/-- The ends of an edge between the entries of a pair, as they stand. -/
def endsOfPair (p : ℤ × ℤ) : Ends := (.int p.1, .int p.2)

/-- The ends of an edge between integers, the lesser first. -/
def endsOfInts (p : ℤ × ℤ) : Ends := (.int (min p.1 p.2), .int (max p.1 p.2))

theorem endsOfInts_of_le {a b : ℤ} (h : a ≤ b) : endsOfInts (a, b) = (.int a, .int b) := by
  rw [endsOfInts, min_eq_left h, max_eq_right h]

theorem map_endsOfInts (pairs : List (ℤ × ℤ)) :
    pairs.map endsOfInts = (pairs.map inOrder).map endsOfPair := by
  rw [List.map_map]
  rfl

theorem endsBefore_endsOfPair (p q : ℤ × ℤ) :
    endsBefore (endsOfPair p) (endsOfPair q) = .ok (decide (toLex p < toLex q)) := by
  rw [endsBefore, endsOfPair, endsOfPair, Datum.relatedItems, Datum.same_int]
  by_cases hfirst : p.1 = q.1
  · rw [if_pos (decide_eq_true hfirst), Datum.relatedItems, Datum.same_int]
    by_cases hsecond : p.2 = q.2
    · have hsame : p = q := Prod.ext hfirst hsecond
      rw [if_pos (decide_eq_true hsecond), decide_eq_false (hsame ▸ lt_irrefl (toLex p))]
      rfl
    · rw [if_neg (mt of_decide_eq_true hsecond), Datum.related_less_int]
      simp [Prod.Lex.toLex_lt_toLex, hfirst]
  · rw [if_neg (mt of_decide_eq_true hfirst), Datum.related_less_int]
    simp [Prod.Lex.toLex_lt_toLex, hfirst]

theorem endsAtMost_endsOfPair (p q : ℤ × ℤ) :
    endsAtMost (endsOfPair p) (endsOfPair q) = pairAtMost p q := by
  rw [endsAtMost, endsBefore_endsOfPair, pairAtMost]
  simp only [← decide_not, not_lt]

theorem normalised_ints (p : ℤ × ℤ) : normalised (.int p.1, .int p.2) = .ok (endsOfInts p) := by
  rw [normalised_int, endsOfInts]
  split
  · rename_i hlt
    rw [min_eq_left hlt.le, max_eq_right hlt.le]
  · rename_i hle
    rw [min_eq_right (not_lt.mp hle), max_eq_left (not_lt.mp hle)]

/-- Edges between integers as data. -/
def edgesDatum (pairs : List (ℤ × ℤ)) : Datum := .list (pairs.map fun p ↦ edgeDatum p.1 p.2)

theorem readEnds_ints (pairs : List (ℤ × ℤ)) :
    readEnds (pairs.map fun p ↦ edgeDatum p.1 p.2) = .ok (pairs.map endsOfInts) := by
  induction pairs with
  | nil => rfl
  | cons p pairs ih =>
    simp only [List.map_cons, readEnds, endsOf_edgeDatum, normalised_ints, ih, bind, Except.bind,
      pure, Except.pure]

theorem sortedEnds_ints (pairs : List (ℤ × ℤ)) :
    sortedEnds (edgesDatum pairs) = .ok (sortedBy endsAtMost (pairs.map endsOfInts)) := by
  have hnumbers : (pairs.map endsOfInts).all areNumbers = true := by
    simp [areNumbers, endsOfInts, Datum.numeric?]
  change (readEnds _ >>= sortEnds) = _
  rw [readEnds_ints]
  exact if_pos hnumbers

theorem sortedEnds_edgesDatum (pairs : List (ℤ × ℤ)) :
    sortedEnds (edgesDatum pairs) = .ok ((sortedPairs pairs).map endsOfPair) := by
  rw [sortedEnds_ints, map_endsOfInts, sortedBy_map endsAtMost_endsOfPair, sortedPairs]

end DegreeGraph
