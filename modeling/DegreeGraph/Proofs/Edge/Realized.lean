import DegreeGraph.Edge.Realized
import DegreeGraph.Proofs.Edge.Ends

/-!
# Recognizing a realization

Whether pairs of integers are the edges of a simple graph with given degrees is a question about the
unordered pairs: none is there twice, none is a loop, all entries are nodes (`AreSimple`), and every
node lies in as many pairs as its degree says. `isRealization` decides it and is never refused,
whatever the integers are (`isRealization_decides`). Entries that are no nodes end the search before
anything is counted at them, so that no number is taken for a place from the end or beyond it.
-/

namespace DegreeGraph

variable {n : ℕ} {degrees : List ℤ} {pairs others seen rows : List (ℤ × ℤ)} {p q : ℤ × ℤ} {z : ℤ}

/-! ## Nodes and edges below a number -/

/-- A number is one of the nodes below a number. -/
def IsNodeBelow (n : ℕ) (z : ℤ) : Prop := 0 ≤ z ∧ z < n

instance : DecidablePred (IsNodeBelow n) := fun z ↦ inferInstanceAs (Decidable (0 ≤ z ∧ z < n))

/-- A pair joins two of the nodes below a number. -/
def IsEdgeBelow (n : ℕ) (p : ℤ × ℤ) : Prop := p.1 ≠ p.2 ∧ IsNodeBelow n p.1 ∧ IsNodeBelow n p.2

instance : DecidablePred (IsEdgeBelow n) := fun p ↦
  inferInstanceAs (Decidable (p.1 ≠ p.2 ∧ IsNodeBelow n p.1 ∧ IsNodeBelow n p.2))

/-- Pairs are the edges of a simple graph on the nodes below a number, each listed once. -/
structure AreSimple (n : ℕ) (pairs : List (ℤ × ℤ)) : Prop where
  nodup : (unordered pairs).Nodup
  not_isDiag : ∀ e ∈ unordered pairs, ¬e.IsDiag
  isNodeBelow : ∀ e ∈ unordered pairs, ∀ z ∈ e, IsNodeBelow n z

theorem nodup_map_inOrder_iff : (pairs.map inOrder).Nodup ↔ (unordered pairs).Nodup := by
  constructor
  · intro h
    rw [map_inOrder] at h
    exact h.of_map
  · intro h
    rw [← unordered_map_inOrder, unordered] at h
    exact h.of_map

theorem areSimple_iff :
    AreSimple n pairs ↔ (∀ p ∈ pairs, IsEdgeBelow n p) ∧ (pairs.map inOrder).Nodup := by
  rw [nodup_map_inOrder_iff]
  constructor
  · rintro ⟨hnodup, hloops, hnodes⟩
    refine ⟨fun p hp ↦ ?_, hnodup⟩
    have hmem : s(p.1, p.2) ∈ unordered pairs := List.mem_map_of_mem hp
    exact ⟨fun heq ↦ hloops _ hmem (Sym2.mk_isDiag_iff.mpr heq),
      hnodes _ hmem _ (Sym2.mem_mk_left _ _), hnodes _ hmem _ (Sym2.mem_mk_right _ _)⟩
  · rintro ⟨hedges, hnodup⟩
    refine ⟨hnodup, List.forall_mem_map.mpr fun p hp ↦ ?_,
      List.forall_mem_map.mpr fun p hp z hz ↦ ?_⟩
    · rw [Sym2.mk_isDiag_iff]
      exact (hedges p hp).1
    · rcases Sym2.mem_iff.mp hz with rfl | rfl
      · exact (hedges p hp).2.1
      · exact (hedges p hp).2.2

instance : Decidable (AreSimple n pairs) := decidable_of_iff _ areSimple_iff.symm

theorem AreSimple.of_perm (h : (unordered others).Perm (unordered pairs))
    (hpairs : AreSimple n pairs) : AreSimple n others where
  nodup := h.nodup_iff.mpr hpairs.nodup
  not_isDiag e he := hpairs.not_isDiag e (h.mem_iff.mp he)
  isNodeBelow e he := hpairs.isNodeBelow e (h.mem_iff.mp he)

/-! ## The search for an edge that is none -/

theorem related_atMost_int (a b : ℤ) :
    Datum.related .atMost (.int a) (.int b) = .ok (decide (a ≤ b)) := by
  have hadmits : Relation.atMost.admits (compare a b) = decide (a ≤ b) := by
    rw [Relation.admits, Bool.eq_iff_iff, decide_eq_true_iff, bne_iff_ne, compare_le_iff_le]
  rw [Datum.related_int, hadmits]

theorem isNode_int (n : ℕ) (z : ℤ) : isNode n (.int z) = .ok (decide (IsNodeBelow n z)) := by
  rw [isNode, related_atMost_int]
  by_cases hpos : 0 ≤ z
  · simp [bind, Except.bind, hpos, Datum.related_less_int, IsNodeBelow]
  · simp [bind, Except.bind, pure, Except.pure, hpos, IsNodeBelow]

theorem sameEnds_endsOfPair (p q : ℤ × ℤ) :
    sameEnds (endsOfPair p) (endsOfPair q) = decide (p = q) := by
  rw [sameEnds, endsOfPair, endsOfPair, Datum.same_int, Datum.same_int, ← Bool.decide_and]
  exact decide_eq_decide.mpr Prod.ext_iff.symm

theorem any_sameEnds_iff :
    (seen.map endsOfPair).any (sameEnds (endsOfPair q)) = decide (q ∈ seen) := by
  rw [List.any_map, Bool.eq_iff_iff, List.any_eq_true, decide_eq_true_iff]
  simp only [Function.comp_apply, sameEnds_endsOfPair, decide_eq_true_iff, exists_eq_right']

/-- One step of the search: it ends with nothing at a pair that is no edge or was there before. -/
theorem simpleEnds_cons (p : ℤ × ℤ) (rest : List Datum) :
    simpleEnds n (seen.map endsOfPair) (edgeDatum p.1 p.2 :: rest)
      = if IsEdgeBelow n p ∧ inOrder p ∉ seen then
          simpleEnds n ((seen ++ [inOrder p]).map endsOfPair) rest
        else .ok none := by
  have hends : endsOfInts p = endsOfPair (inOrder p) := rfl
  rw [simpleEnds, endsOf_edgeDatum]
  by_cases hloop : p.1 = p.2
  · simp [bind, Except.bind, pure, Except.pure, Datum.same_int, hloop, IsEdgeBelow]
  by_cases hfirst : IsNodeBelow n p.1
  · by_cases hsecond : IsNodeBelow n p.2
    · by_cases hseen : inOrder p ∈ seen
      · simp [bind, Except.bind, pure, Except.pure, Datum.same_int, isNode_int, normalised_ints,
          hends, -List.any_map, any_sameEnds_iff, hloop, hfirst, hsecond, hseen]
      · simp [bind, Except.bind, Datum.same_int, isNode_int, normalised_ints, hends, -List.any_map,
          any_sameEnds_iff, hloop, hfirst, hsecond, hseen, IsEdgeBelow]
    · simp [bind, Except.bind, pure, Except.pure, Datum.same_int, isNode_int, hloop, hfirst,
        hsecond, IsEdgeBelow]
  · simp [bind, Except.bind, pure, Except.pure, Datum.same_int, isNode_int, hloop, hfirst,
      IsEdgeBelow]

/-- **The search goes to the end exactly if the pairs are edges and new**, each time. -/
theorem simpleEnds_ints (hseen : seen.Nodup) :
    simpleEnds n (seen.map endsOfPair) (pairs.map fun p ↦ edgeDatum p.1 p.2)
      = .ok (if (∀ p ∈ pairs, IsEdgeBelow n p) ∧ (seen ++ pairs.map inOrder).Nodup then
          some ((seen ++ pairs.map inOrder).map endsOfPair) else none) := by
  induction pairs generalizing seen with
  | nil => simp [simpleEnds, hseen]
  | cons p pairs ih =>
    have happend :
        seen ++ (p :: pairs).map inOrder = (seen ++ [inOrder p]) ++ pairs.map inOrder := by
      simp
    rw [List.map_cons, simpleEnds_cons, happend]
    by_cases hnew : IsEdgeBelow n p ∧ inOrder p ∉ seen
    · have hnodup : (seen ++ [inOrder p]).Nodup := by
        rw [List.nodup_append_comm]
        exact List.nodup_cons.mpr ⟨hnew.2, hseen⟩
      rw [if_pos hnew, ih hnodup]
      simp only [List.forall_mem_cons, hnew.1, true_and]
    · rw [if_neg hnew, if_neg]
      rintro ⟨hedges, hnodup⟩
      refine hnew ⟨(List.forall_mem_cons.mp hedges).1, fun hmem ↦ ?_⟩
      have hfront := (List.nodup_append.mp hnodup).1
      exact (List.nodup_append.mp hfront).2.2 _ hmem _ (List.mem_singleton_self _) rfl

/-! ## The count -/

/-- The number of pairs that a number lies in. -/
def incident (pairs : List (ℤ × ℤ)) (z : ℤ) : ℕ := (unordered pairs).countP (z ∈ ·)

theorem incident_cons (p : ℤ × ℤ) (pairs : List (ℤ × ℤ)) (z : ℤ) :
    incident (p :: pairs) z = incident pairs z + if z ∈ s(p.1, p.2) then 1 else 0 := by
  rw [incident, unordered, List.map_cons, List.countP_cons, incident, unordered]
  simp only [decide_eq_true_eq]

theorem countAt_int {ds : List ℤ} (h : IsNodeBelow ds.length z) :
    countAt ds (.int z) = .ok (ds.modify z.toNat (· + 1)) := by
  have hplace : placeOf ds.length (.int z) = .ok z.toNat := by
    simp [placeOf, Datum.toInt?, not_lt.mpr h.1, h.1, h.2]
  rw [countAt, hplace]
  rfl

theorem countEnds_endsOfPair {ds : List ℤ} (hp : IsEdgeBelow ds.length p) :
    countEnds ds (endsOfPair p) = .ok ((ds.modify p.1.toNat (· + 1)).modify p.2.toNat (· + 1)) := by
  have hsecond : IsNodeBelow (ds.modify p.1.toNat (· + 1)).length p.2 := by
    rw [List.length_modify]
    exact hp.2.2
  rw [countEnds, endsOfPair, countAt_int hp.2.1]
  exact countAt_int hsecond

/-- One edge adds one to the degrees of its two nodes. -/
theorem modify_modify_eq {ds : List ℤ} (hp : IsEdgeBelow ds.length p) :
    (ds.modify p.1.toNat (· + 1)).modify p.2.toNat (· + 1)
      = ds.mapIdx fun i d ↦ d + if (i : ℤ) ∈ s(p.1, p.2) then 1 else 0 := by
  obtain ⟨hne, ⟨hfirst, -⟩, hsecond, -⟩ := hp
  refine List.ext_getElem (by simp) fun i hi _ ↦ ?_
  have hiff₁ : p.1.toNat = i ↔ (i : ℤ) = p.1 := by omega
  have hiff₂ : p.2.toNat = i ↔ (i : ℤ) = p.2 := by omega
  simp only [List.getElem_modify, List.getElem_mapIdx, Sym2.mem_iff, hiff₁, hiff₂]
  by_cases h₁ : (i : ℤ) = p.1
  · have h₂ : (i : ℤ) ≠ p.2 := fun h₂ ↦ hne (h₁.symm.trans h₂)
    simp [h₁, hne]
  · simp [h₁]
    split_ifs <;> simp

/-- **Counting goes well and adds to every degree the number of pairs that the node lies in.** -/
theorem countAll_ints {ds : List ℤ} (hrows : ∀ p ∈ rows, IsEdgeBelow ds.length p) :
    countAll ds (rows.map endsOfPair) = .ok (ds.mapIdx fun i d ↦ d + incident rows i) := by
  induction rows generalizing ds with
  | nil =>
    refine congrArg Except.ok (List.ext_getElem (by simp) fun i _ _ ↦ ?_)
    simp [incident, unordered]
  | cons p rows ih =>
    obtain ⟨hp, hrest⟩ := List.forall_mem_cons.mp hrows
    have hone := countEnds_endsOfPair hp
    rw [modify_modify_eq hp] at hone
    rw [List.map_cons, countAll, hone]
    refine (ih ?_).trans (congrArg Except.ok ?_)
    · rwa [List.length_mapIdx]
    · refine List.ext_getElem (by simp) fun i _ _ ↦ ?_
      simp only [List.getElem_mapIdx, incident_cons]
      push_cast
      ring

theorem mapIdx_replicate_eq_iff {f : ℕ → ℤ} :
    (List.replicate degrees.length (0 : ℤ)).mapIdx (fun i d ↦ d + f i) = degrees
      ↔ ∀ i : Fin degrees.length, f i = degrees.get i := by
  constructor
  · intro h i
    have hget := List.getElem_of_eq h (by simp : i.val < _)
    simpa using hget
  · intro h
    refine List.ext_getElem (by simp) fun i hi hi' ↦ ?_
    simpa using h ⟨i, hi'⟩

/-! ## The decision -/

theorem incident_map_inOrder (pairs : List (ℤ × ℤ)) (z : ℤ) :
    incident (pairs.map inOrder) z = incident pairs z := by
  rw [incident, unordered_map_inOrder, incident]

theorem isEdgeBelow_inOrder (p : ℤ × ℤ) : IsEdgeBelow n (inOrder p) ↔ IsEdgeBelow n p := by
  rcases inOrder_eq_or_eq_swap p with hsame | hswap
  · rw [hsame]
  · rw [hswap, IsEdgeBelow, IsEdgeBelow, Prod.fst_swap, Prod.snd_swap, ne_comm]
    tauto

theorem simpleEnds_nil (n : ℕ) (pairs : List (ℤ × ℤ)) :
    simpleEnds n [] (pairs.map fun p ↦ edgeDatum p.1 p.2)
      = .ok (if AreSimple n pairs then some ((pairs.map inOrder).map endsOfPair) else none) := by
  refine (simpleEnds_ints List.nodup_nil).trans (congrArg Except.ok ?_)
  rw [List.nil_append]
  exact if_congr areSimple_iff.symm rfl rfl

/-- The answer for edges between integers. -/
theorem isRealization_ints (pairs : List (ℤ × ℤ)) (degrees : List ℤ) :
    isRealization (edgesDatum pairs) (sequenceDatum degrees)
      = .ok (decide (AreSimple degrees.length pairs
        ∧ ∀ i : Fin degrees.length, (incident pairs i : ℤ) = degrees.get i)) := by
  have hparts : partsOf (edgesDatum pairs) = .ok (pairs.map fun p ↦ edgeDatum p.1 p.2) := rfl
  rw [isRealization, degreesOf_ints]
  simp only [hparts, bind, Except.bind, simpleEnds_nil]
  by_cases hsimple : AreSimple degrees.length pairs
  · have hrows : ∀ p ∈ pairs.map inOrder,
        IsEdgeBelow (List.replicate degrees.length (0 : ℤ)).length p := by
      rw [List.length_replicate]
      exact List.forall_mem_map.mpr fun p hp ↦
        (isEdgeBelow_inOrder p).mpr ((areSimple_iff.mp hsimple).1 p hp)
    rw [if_pos hsimple]
    simp only [countAll_ints hrows, incident_map_inOrder, pure, Except.pure, Except.ok.injEq]
    rw [Bool.eq_iff_iff, beq_iff_eq, mapIdx_replicate_eq_iff, decide_eq_true_iff]
    exact (and_iff_right hsimple).symm
  · rw [if_neg hsimple, decide_eq_false fun h ↦ hsimple h.1]
    rfl

/-- **A realization is recognized, and nothing else is.** For all pairs of integers and all degrees
there is an answer. It is positive exactly if the pairs, without the order of their entries, are the
edges of a simple graph on the nodes below the number of degrees, each there once, and every node
lies in as many of them as its degree says. Neither the order of the pairs nor that of their entries
makes a difference. -/
theorem isRealization_decides (pairs : List (ℤ × ℤ)) (degrees : List ℤ) :
    ∃ answer : Bool, isRealization (edgesDatum pairs) (sequenceDatum degrees) = .ok answer
      ∧ (answer = true ↔ AreSimple degrees.length pairs ∧ ∀ i : Fin degrees.length,
        ((unordered pairs).countP (fun e ↦ (i : ℤ) ∈ e) : ℤ) = degrees.get i)
      ∧ ∀ others : List (ℤ × ℤ), (unordered others).Perm (unordered pairs) →
        isRealization (edgesDatum others) (sequenceDatum degrees) = .ok answer := by
  refine ⟨_, isRealization_ints pairs degrees, ?_, fun others hperm ↦ ?_⟩
  · rw [decide_eq_true_iff]
    rfl
  · rw [isRealization_ints, Except.ok.injEq, decide_eq_decide]
    have hincident (z : ℤ) : incident others z = incident pairs z := hperm.countP_eq _
    simp only [hincident]
    exact and_congr_left' ⟨AreSimple.of_perm hperm.symm, AreSimple.of_perm hperm⟩

/-- The reverse of an edge is the edge once more. -/
example : isRealization (edgesDatum [(0, 1), (1, 0)]) (sequenceDatum [2, 2]) = .ok false := rfl

end DegreeGraph
