import DegreeGraph.Proofs.Store.Contents

/-!
# The simple view of a store

The links of a store are listed by their ends and then by their numbers, and of those in a row that
join the same nodes the view keeps the last. Since links between two nodes are numbered in the order
in which they were made, it is the latest one (`SimpleView.find?_ofContents`), and since the list is
in order, no two edges of the view join the same nodes (`SimpleView.pairwise_ofContents`).
-/

namespace DegreeGraph

variable {c : Contents} {links : List Link} {l m : Link} {a b : ℕ}

/-! ## Ends in order -/

/-- The ends of a link, the lower handle first, in lexicographic order. -/
def Link.span (l : Link) : ℕ ×ₗ ℕ := toLex (l.low, l.high)

/-- The ends of an edge of the simple view, the lower handle first, in lexicographic order. -/
def SimpleEdge.span (e : SimpleEdge) : ℕ ×ₗ ℕ := toLex (e.low, e.high)

/-- The ends of an edge of the simple view, in no order. -/
def SimpleEdge.pair (e : SimpleEdge) : Sym2 ℕ := s(e.low, e.high)

/-- The edge joins two handles, in either order. -/
def SimpleEdge.joins (e : SimpleEdge) (a b : ℕ) : Bool := e.low == min a b && e.high == max a b

@[simp] theorem Link.span_toEdge (l : Link) : l.toEdge.span = l.span := rfl

@[simp] theorem Link.joins_toEdge (l : Link) (a b : ℕ) : l.toEdge.joins a b = l.joins a b := rfl

theorem Link.joins_iff_span_eq :
    l.joins a b = true ↔ l.span = toLex (min a b, max a b) := by
  rw [Link.joins_iff, Link.span, toLex_inj, Prod.mk.injEq]

theorem SimpleEdge.joins_iff_span_eq {e : SimpleEdge} :
    e.joins a b = true ↔ e.span = toLex (min a b, max a b) := by
  rw [SimpleEdge.joins, SimpleEdge.span, toLex_inj, Prod.mk.injEq, Bool.and_eq_true, beq_iff_eq,
    beq_iff_eq]

/-- Links are listed by their ends and then by their numbers. -/
theorem linkAtMost_iff :
    linkAtMost l m = true ↔ toLex (l.span, l.number) ≤ toLex (m.span, m.number) := by
  simp only [linkAtMost, Link.span, Prod.Lex.toLex_le_toLex, Prod.Lex.toLex_lt_toLex, toLex_inj,
    Prod.mk.injEq, Bool.or_eq_true, Bool.and_eq_true, decide_eq_true_eq, beq_iff_eq]
  omega

theorem Contents.pairwise_sortedLinks (c : Contents) :
    c.sortedLinks.Pairwise fun l m ↦ toLex (l.span, l.number) ≤ toLex (m.span, m.number) := by
  refine (pairwise_sortedBy ?_ ?_ c.links).imp linkAtMost_iff.mp
  · intro l m
    rw [Bool.or_eq_true, linkAtMost_iff, linkAtMost_iff]
    exact le_total _ _
  · intro l m n hlm hmn
    exact linkAtMost_iff.mpr ((linkAtMost_iff.mp hlm).trans (linkAtMost_iff.mp hmn))

theorem Contents.pairwise_span_sortedLinks (c : Contents) :
    c.sortedLinks.Pairwise fun l m ↦ l.span ≤ m.span :=
  c.pairwise_sortedLinks.imp fun h ↦ (Prod.Lex.toLex_le_toLex.mp h).elim le_of_lt (·.1.le)

/-! ## The last of each -/

namespace SimpleView

theorem lastOfEach_cons_of_eq (rest : List Link) (h : l.span = m.span) :
    lastOfEach (l :: m :: rest) = lastOfEach (m :: rest) :=
  if_pos (Prod.mk.inj (toLex_inj.mp h))

theorem lastOfEach_cons_of_ne (rest : List Link) (h : l.span ≠ m.span) :
    lastOfEach (l :: m :: rest) = l.toEdge :: lastOfEach (m :: rest) :=
  if_neg fun heq ↦ h (toLex_inj.mpr (Prod.ext heq.1 heq.2))

theorem exists_link_of_mem_lastOfEach {e : SimpleEdge} (he : e ∈ lastOfEach links) :
    ∃ l ∈ links, l.toEdge = e := by
  induction links with
  | nil => cases he
  | cons l links ih =>
    cases links with
    | nil => exact ⟨l, List.mem_singleton_self l, (List.mem_singleton.mp he).symm⟩
    | cons m rest =>
      by_cases hspan : l.span = m.span
      · rw [lastOfEach_cons_of_eq rest hspan] at he
        obtain ⟨k, hk, heq⟩ := ih he
        exact ⟨k, List.mem_cons_of_mem l hk, heq⟩
      · rw [lastOfEach_cons_of_ne rest hspan] at he
        rcases List.mem_cons.mp he with rfl | he
        · exact ⟨l, List.mem_cons_self, rfl⟩
        · obtain ⟨k, hk, heq⟩ := ih he
          exact ⟨k, List.mem_cons_of_mem l hk, heq⟩

/-- A link in front of others with other ends has lower ends than all of them. -/
theorem lt_span_of_pairwise {rest : List Link}
    (h : (l :: m :: rest).Pairwise fun l m ↦ l.span ≤ m.span) (hne : l.span ≠ m.span) :
    ∀ k ∈ m :: rest, l.span < k.span := by
  obtain ⟨hfirst, hrest⟩ := List.pairwise_cons.mp h
  have hlt : l.span < m.span := lt_of_le_of_ne (hfirst m List.mem_cons_self) hne
  intro k hk
  rcases List.mem_cons.mp hk with rfl | hk
  · exact hlt
  · exact hlt.trans_le ((List.pairwise_cons.mp hrest).1 k hk)

theorem pairwise_lastOfEach (h : links.Pairwise fun l m ↦ l.span ≤ m.span) :
    (lastOfEach links).Pairwise fun e f ↦ e.span < f.span := by
  induction links with
  | nil => exact List.Pairwise.nil
  | cons l links ih =>
    cases links with
    | nil => exact List.pairwise_singleton _ _
    | cons m rest =>
      have hrest := ih h.of_cons
      by_cases hspan : l.span = m.span
      · rwa [lastOfEach_cons_of_eq rest hspan]
      · rw [lastOfEach_cons_of_ne rest hspan]
        refine List.pairwise_cons.mpr ⟨fun e he ↦ ?_, hrest⟩
        obtain ⟨k, hk, rfl⟩ := exists_link_of_mem_lastOfEach he
        exact lt_span_of_pairwise h hspan k hk

/-- Of the links that join two handles, the last one is the edge between them. -/
theorem find?_lastOfEach (h : links.Pairwise fun l m ↦ l.span ≤ m.span) (a b : ℕ) :
    (lastOfEach links).find? (·.joins a b)
      = (links.filter (·.joins a b)).getLast?.map Link.toEdge := by
  induction links with
  | nil => rfl
  | cons l links ih =>
    cases links with
    | nil => cases hjoins : l.joins a b <;> simp [lastOfEach, hjoins]
    | cons m rest =>
      have hrest := ih h.of_cons
      by_cases hspan : l.span = m.span
      · -- The link behind has the same ends, so this one is not the last.
        rw [lastOfEach_cons_of_eq rest hspan, hrest]
        have hsame : l.joins a b = m.joins a b := by
          rw [Bool.eq_iff_iff, Link.joins_iff_span_eq, Link.joins_iff_span_eq, hspan]
        cases hjoins : m.joins a b <;> simp [hsame, hjoins, List.getLast?_cons_cons]
      · rw [lastOfEach_cons_of_ne rest hspan, List.find?_cons, Link.joins_toEdge, hrest]
        cases hjoins : l.joins a b with
        | false => simp [hjoins]
        | true =>
          -- No link behind has the same ends.
          have hnone : (m :: rest).filter (·.joins a b) = [] := by
            refine List.filter_eq_nil_iff.mpr fun k hk hk' ↦ ?_
            have hlt := lt_span_of_pairwise h hspan k hk
            rw [Link.joins_iff_span_eq.mp hjoins, Link.joins_iff_span_eq.mp hk'] at hlt
            exact lt_irrefl _ hlt
          have hone : (l :: m :: rest).filter (·.joins a b) = [l] := by
            rw [List.filter_cons, if_pos hjoins, hnone]
          rw [hone]
          rfl

end SimpleView

/-! ## The view of a store -/

/-- Between two handles, links stand in the order in which they were made. -/
theorem Contents.WellFormed.filter_sortedLinks (hc : c.WellFormed) (a b : ℕ) :
    c.sortedLinks.filter (·.joins a b) = c.links.filter (·.joins a b) := by
  have hnumbers := hc.numbered a b
  have hmade : (c.links.filter (·.joins a b)).Pairwise fun l m ↦ l.number < m.number := by
    rw [← List.pairwise_map (R := (· < ·)), hnumbers]
    exact List.pairwise_lt_range
  have hlisted : (c.sortedLinks.filter (·.joins a b)).Pairwise fun l m ↦ l.number ≤ m.number := by
    refine (c.pairwise_sortedLinks.filter _).imp_of_mem fun {l m} hl hm hle ↦ ?_
    have hspan : l.span = m.span :=
      (Link.joins_iff_span_eq.mp (List.mem_filter.mp hl).2).trans
        (Link.joins_iff_span_eq.mp (List.mem_filter.mp hm).2).symm
    rcases Prod.Lex.toLex_le_toLex.mp hle with hlt | ⟨-, hle⟩
    · exact absurd hspan hlt.ne
    · exact hle
  have hperm := (perm_sortedBy linkAtMost c.links).filter (·.joins a b)
  refine List.Perm.eq_of_pairwise (fun l m hl hm hlm hml ↦ ?_) hlisted (hmade.imp le_of_lt) hperm
  -- Two links between the same handles that have one number are one link.
  have hnodup : ((c.links.filter (·.joins a b)).map Link.number).Nodup := by
    rw [hnumbers]
    exact List.nodup_range
  exact List.inj_on_of_nodup_map hnodup (hperm.mem_iff.mp hl) hm (hlm.antisymm hml)

namespace SimpleView

/-- **The edge between two handles is the link between them that was made last.** -/
theorem find?_ofContents (hc : c.WellFormed) (a b : ℕ) :
    (ofContents c).edges.find? (·.joins a b)
      = (c.links.filter (·.joins a b)).getLast?.map Link.toEdge := by
  rw [← hc.filter_sortedLinks]
  exact find?_lastOfEach c.pairwise_span_sortedLinks a b

theorem pairwise_ofContents (c : Contents) :
    (ofContents c).edges.Pairwise fun e f ↦ e.span < f.span :=
  pairwise_lastOfEach c.pairwise_span_sortedLinks

theorem perm_nodes_ofContents (c : Contents) : (ofContents c).nodes.Perm c.nodes :=
  perm_sortedBy nodeAtMost c.nodes

variable {e : SimpleEdge}

theorem low_le_high (hc : c.WellFormed) (he : e ∈ (ofContents c).edges) : e.low ≤ e.high := by
  obtain ⟨l, hl, rfl⟩ := exists_link_of_mem_lastOfEach he
  exact hc.low_le_high l ((perm_sortedBy linkAtMost c.links).mem_iff.mp hl)

theorem joins_iff_pair_eq (hc : c.WellFormed) (he : e ∈ (ofContents c).edges) (a b : ℕ) :
    e.joins a b = true ↔ e.pair = s(a, b) := by
  have hle := low_le_high hc he
  rw [SimpleEdge.joins, Bool.and_eq_true, beq_iff_eq, beq_iff_eq, SimpleEdge.pair, Sym2.eq_iff]
  omega

theorem eq_of_pair_eq (hc : c.WellFormed) {f : SimpleEdge} (he : e ∈ (ofContents c).edges)
    (hf : f ∈ (ofContents c).edges) (heq : e.pair = f.pair) : e = f := by
  have hspan : e.span = f.span := by
    rw [SimpleEdge.joins_iff_span_eq.mp ((joins_iff_pair_eq hc he _ _).mpr heq),
      SimpleEdge.joins_iff_span_eq.mp ((joins_iff_pair_eq hc hf _ _).mpr rfl)]
  have hnodup : ((ofContents c).edges.map SimpleEdge.span).Nodup :=
    List.pairwise_map.mpr ((pairwise_ofContents c).imp fun h ↦ h.ne)
  exact List.inj_on_of_nodup_map hnodup he hf hspan

theorem nodup_pairs (hc : c.WellFormed) : ((ofContents c).edges.map SimpleEdge.pair).Nodup := by
  have hnodup : (ofContents c).edges.Nodup := (pairwise_ofContents c).imp fun h heq ↦
    h.ne (congrArg SimpleEdge.span heq)
  exact hnodup.map_on fun e he f hf ↦ eq_of_pair_eq hc he hf

theorem exists_edge_iff (hc : c.WellFormed) (a b : ℕ) :
    (∃ e ∈ (ofContents c).edges, e.pair = s(a, b)) ↔ ∃ l ∈ c.links, l.joins a b = true := by
  have hfind := congrArg Option.isSome (find?_ofContents hc a b)
  rw [Option.isSome_map, Bool.eq_iff_iff, List.find?_isSome, List.getLast?_filter,
    List.find?_isSome] at hfind
  simp only [List.mem_reverse] at hfind
  rw [← hfind]
  exact exists_congr fun e ↦ and_congr_right fun he ↦ (joins_iff_pair_eq hc he a b).symm

/-- An edge is a link, and none that was made after it joins the same nodes. -/
theorem exists_last_link (hc : c.WellFormed) (he : e ∈ (ofContents c).edges) :
    ∃ before l after, c.links = before ++ l :: after ∧ l.toEdge = e
      ∧ ∀ later ∈ after, ¬later.joins e.low e.high = true := by
  have hjoins := (joins_iff_pair_eq hc he e.low e.high).mpr rfl
  have hlast := find?_ofContents hc e.low e.high
  cases hfind : (ofContents c).edges.find? (·.joins e.low e.high) with
  | none => exact absurd hjoins (List.find?_eq_none.mp hfind e he)
  | some f =>
    -- There is only one edge between the two nodes.
    have hf := List.mem_of_find?_eq_some hfind
    have hsame : f.joins e.low e.high = true := by simpa using List.find?_some hfind
    obtain rfl := eq_of_pair_eq hc hf he ((joins_iff_pair_eq hc hf _ _).mp hsame)
    rw [hfind, List.getLast?_filter] at hlast
    obtain ⟨l, hl, rfl⟩ := Option.map_eq_some_iff.mp hlast.symm
    obtain ⟨-, after, before, hsplit, hafter⟩ := List.find?_eq_some_iff_append.mp hl
    refine ⟨before.reverse, l, after.reverse, ?_, rfl, fun later hlater ↦ ?_⟩
    · rw [← List.reverse_reverse c.links, hsplit, List.reverse_append, List.reverse_cons,
        List.append_assoc, List.singleton_append]
    · simpa using hafter later (List.mem_reverse.mp hlater)

end SimpleView

end DegreeGraph
