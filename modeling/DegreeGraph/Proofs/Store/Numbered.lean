import DegreeGraph.Proofs.Number.Decimal
import DegreeGraph.Proofs.Store.Generated
import DegreeGraph.Proofs.Store.View

/-!
# Numbered nodes in a new store

A writer that makes all nodes gives the number `i` the handle `i` in a new store, whatever the text
of the number is as long as it has one, and links the nodes of each edge once. What the store holds then is told by the
number of nodes and the edges (`numberedContents`): no edge of a list without repetition finds a
link between its ends, and the simple view is the store itself, one edge for each link, if the edges
come in ascending order (`SimpleView.ofContents_numbered`).
-/

namespace DegreeGraph

open DegreeGraph.Number

variable {α : Type} {n i : ℕ} {edges rest : List Edge} {e : Edge} {s : Store}

/-! ## What the store holds -/

/-- The default layout, with nodes for all numbers. -/
def numberingLayout : Layout := ({ isolatedNodes := .bool true } : Config).layout

/-- The attributes of the node of a number. -/
def numberAttributes (i : ℕ) : Attributes := [("label", .text "Node"), ("name", .text (toString i))]

/-- What the node of a number is found by. -/
def numberKey (i : ℕ) : NodeKey := ⟨.text "Node", .text "name", .text (toString i)⟩

/-- The link of an edge between numbers that are their own handles. -/
def linkOfEdge (e : Edge) : Link := ⟨e.1, e.2, 0, .text "relto", .int e.2⟩

/-- The numbers below `n` as nodes with these handles, and edges between them. -/
def numberedContents (n : ℕ) (edges : List Edge) : Contents where
  nodes := (List.range n).map fun i ↦ ⟨i, numberAttributes i⟩
  links := edges.map linkOfEdge
  index := ((List.range n).map fun i ↦ (numberKey i, i)).reverse
  nextHandle := n

/-- A store that was new when numbers and edges were written to it. -/
def Store.numbered (opened : Bool) (n : ℕ) (edges : List Edge) : Store where
  contents := numberedContents n edges
  inTransaction := opened
  attempts := edges.length

theorem numberKey_inj {i j : ℕ} : numberKey i = numberKey j ↔ i = j := by
  have htext : toString i = toString j ↔ i = j := display_int_inj.trans Int.natCast_inj
  simp only [numberKey, NodeKey.mk.injEq, Key.text.injEq, true_and, htext]

theorem numberedContents_succ (n : ℕ) (edges : List Edge) : numberedContents (n + 1) edges
    = (numberedContents n edges).addNode (numberKey n) (numberAttributes n) := by
  simp [numberedContents, Contents.addNode, List.range_succ]

theorem find?_numberedContents (n i : ℕ) (edges : List Edge) :
    (numberedContents n edges).find? (numberKey i) = if i < n then some i else none := by
  induction n with
  | zero => rfl
  | succ n ih =>
    rw [numberedContents_succ, Contents.find?_addNode, ih]
    by_cases heq : i = n
    · rw [if_pos (numberKey_inj.mpr heq), if_pos (by omega), heq]
      rfl
    · rw [if_neg (mt numberKey_inj.mp heq)]
      exact if_congr (by omega) rfl rfl

theorem hasHandle_numberedContents (h : i < n) (edges : List Edge) :
    (numberedContents n edges).hasHandle i := by
  rw [Contents.hasHandle_iff, numberedContents, List.map_map]
  exact List.mem_map.mpr ⟨i, List.mem_range.mpr h, rfl⟩

theorem addLink_numberedContents (n : ℕ) (hlt : e.1 < e.2) (hnew : e ∉ edges) :
    (numberedContents n edges).addLink e.1 e.2 (.text "relto") (.int e.2)
      = numberedContents n (edges ++ [e]) := by
  have hapart : ∀ l ∈ (numberedContents n edges).links, l.joins e.1 e.2 = false := by
    refine List.forall_mem_map.mpr fun f hf ↦ Bool.eq_false_iff.mpr fun hjoins ↦ ?_
    obtain ⟨hlow, hhigh⟩ := Link.joins_iff.mp hjoins
    rw [min_eq_left hlt.le] at hlow
    rw [max_eq_right hlt.le] at hhigh
    exact hnew (Prod.ext (hlow : f.1 = e.1) (hhigh : f.2 = e.2) ▸ hf)
  have hcount : (numberedContents n edges).countLinks e.1 e.2 = 0 :=
    List.countP_eq_zero.mpr fun l hl ↦ Bool.eq_false_iff.mp (hapart l hl)
  have hshown : (numberedContents n edges).shownEnd e.1 e.2 (.int e.2) = .int e.2 := by
    rw [Contents.shownEnd, List.find?_eq_none.mpr fun l hl ↦ Bool.eq_false_iff.mp (hapart l hl)]
  rw [Contents.addLink, hcount, hshown, min_eq_left hlt.le, max_eq_right hlt.le]
  simp only [numberedContents, List.map_append, List.map_singleton, linkOfEdge]

/-! ## Writing -/

namespace Store

/-- The numbers that are no greater than all writable ones are writable. -/
theorem isWritable_int (h : i < 10 ^ digitLimit) : (Datum.int i).isWritable = true :=
  isWritable_iff.mpr (by rwa [Int.natAbs_natCast])

theorem placeNode_numbered (b : Bool) (hn : n ≤ 10 ^ digitLimit) (h : i < n) (edges : List Edge) :
    (placeNode numberingLayout (.int i)).run (numbered b n edges)
      = (.ok i, numbered b n edges) := by
  have hname : ((numbered b n edges).nameOf numberingLayout.label (.text (Datum.int i).display)
      numberingLayout.property).nodeKey = .ok (numberKey i) := rfl
  have hfind : (numbered b n edges).contents.find? (numberKey i) = some i :=
    (find?_numberedContents n i edges).trans (if_pos h)
  rw [placeNode_run (isWritable_int (h.trans_le hn)), findOrCreate_run]
  simp only [hname, hfind]

theorem placeNode_numbered_next (b : Bool) (hn : n < 10 ^ digitLimit) (edges : List Edge) :
    (placeNode numberingLayout (.int n)).run (numbered b n edges)
      = (.ok n, numbered b (n + 1) edges) := by
  have hname : (numbered b n edges).nameOf numberingLayout.label (.text (Datum.int n).display)
      numberingLayout.property = ⟨.text "Node", .text "name", .text (toString n)⟩ := rfl
  have hkey : (⟨.text "Node", .text "name", .text (toString n)⟩ : NodeName).nodeKey
      = .ok (numberKey n) := rfl
  have hheld : propertyName (.text "name") = .ok "name" :=
    propertyName_eq_ok_iff.mpr ⟨rfl, by decide⟩
  have hfind : (numbered b n edges).contents.find? (numberKey n) = none :=
    (find?_numberedContents n n edges).trans (if_neg (lt_irrefl n))
  have hnext : numbered b (n + 1) edges = (numbered b n edges).withContents
      ((numberedContents n edges).addNode (numberKey n) (numberAttributes n)) := by
    rw [← numberedContents_succ]
    rfl
  rw [placeNode_run (isWritable_int hn), findOrCreate_run, hname, hnext]
  simp only [hkey, hfind, hheld]
  rfl

/-- The numbers from `n` on get the handles from `n` on. -/
theorem placeNodes_numbered (b : Bool) {k : ℕ} (hk : n + k ≤ 10 ^ digitLimit) (edges : List Edge) :
    (placeNodes numberingLayout ((List.range' n k).map fun i : ℕ ↦ .int i)).run
      (numbered b n edges) = (.ok (), numbered b (n + k) edges) := by
  induction k generalizing n with
  | zero => rfl
  | succ k ih =>
    have hrest := ih (n := n + 1) (by omega)
    rw [List.range'_succ, List.map_cons, placeNodes, Stepwise.run_bind,
      placeNode_numbered_next b (by omega)]
    simp only [hrest, Nat.add_assoc, Nat.add_comm 1 k]

theorem createEdge_numbered (b : Bool) (hlt : e.1 < e.2) (hn : e.2 < n) (hnew : e ∉ edges) :
    (createEdge (.int e.1) (.int e.2) numberingLayout.relationship).run (numbered b n edges)
      = (.ok (), numbered b n (edges ++ [e])) := by
  have hhandle {i : ℕ} (hi : i < n) : (numbered b n edges).handle? (.int i) = some i :=
    handle?_int (hasHandle_numberedContents hi edges)
  have hgone : ¬(numbered b n edges).attempted.isGone = true := nofun
  have hshown : shownAs e.1 e.2 (.int e.1) (.int e.2) = .int e.2 := by
    rw [shownAs, if_neg hlt.ne, if_neg hlt.asymm]
  have hnext : numbered b n (edges ++ [e]) = (numbered b n edges).attempted.withContents
      ((numberedContents n edges).addLink e.1 e.2 (.text "relto") (.int e.2)) := by
    rw [addLink_numberedContents n hlt hnew, numbered, List.length_append, List.length_singleton]
    rfl
  rw [createEdge_run, if_neg hgone, hnext]
  simp only [hhandle (hlt.trans hn), hhandle hn, hshown]
  rfl

/-- The ends of an edge between numbers. -/
theorem placeEdges_numbered (b : Bool) (hbound : n ≤ 10 ^ digitLimit) (hrest : AreEdges n rest)
    (hnodup : (edges ++ rest).Nodup) : (placeEdges numberingLayout (rest.map endsOfEdge)).run (numbered b n edges)
      = (.ok (), numbered b n (edges ++ rest)) := by
  induction rest generalizing edges with
  | nil =>
    rw [List.append_nil]
    rfl
  | cons e rest ih =>
    obtain ⟨⟨hlt, hn⟩, hrest⟩ := List.forall_mem_cons.mp hrest
    have hnew : e ∉ edges := fun hmem ↦
      (List.nodup_append.mp hnodup).2.2 e hmem e List.mem_cons_self rfl
    have hedge : (placeEdge numberingLayout (endsOfEdge e)).run (numbered b n edges)
        = (.ok (), numbered b n (edges ++ [e])) := by
      rw [placeEdge, Stepwise.run_bind, endsOfEdge, placeNode_numbered b hbound (hlt.trans hn)]
      simp only [Stepwise.run_bind, placeNode_numbered b hbound hn]
      exact createEdge_numbered b hlt hn hnew
    rw [List.append_cons] at hnodup ⊢
    rw [List.map_cons, placeEdges, Stepwise.run_bind, hedge]
    exact ih hrest hnodup

/-- **A new store holds numbered nodes and the edges between them** when they have been written. -/
theorem materialize_new {data : Datum} (hdata : sortedEnds data = .ok (edges.map endsOfEdge))
    (hbound : n ≤ 10 ^ digitLimit) (hedges : AreEdges n edges) (hnodup : edges.Nodup) :
    (materialize numberingLayout data (.int n)).run {}
      = (.ok edges.length, numbered false n edges) := by
  have hnumbers : numberedNodes numberingLayout (.int n)
      = .ok ((List.range' 0 n).map fun i : ℕ ↦ .int i) := by
    rw [← List.range_eq_range']
    rfl
  have hplace : (place numberingLayout (.int n) (edges.map endsOfEdge)).run ({} : Store).opened
      = (.ok (), numbered true n edges) := by
    have hopened : ({} : Store).opened = numbered true 0 [] := rfl
    have hnodes := placeNodes_numbered true (n := 0) (k := n) (by omega) []
    rw [Nat.zero_add] at hnodes
    rw [place, Stepwise.run_bind, StoreM.run_lift, hnumbers, hopened]
    simp only [Stepwise.run_bind, hnodes]
    exact placeEdges_numbered true hbound hedges hnodup
  have hwritten : (transaction (place numberingLayout (.int n) (edges.map endsOfEdge))).run {}
      = (.ok (), numbered false n edges) := by
    rw [transaction_run, if_neg nofun, hplace]
    rfl
  rw [materialize, Stepwise.run_bind, StoreM.run_lift, hdata]
  simp only [Stepwise.run_bind, hwritten, List.length_map]
  rfl

end Store

/-! ## What is seen of it -/

/-- What is in order already is not moved. -/
theorem sortedBy_eq_self {β : Type} [LinearOrder β] {le : α → α → Bool} {f : α → β}
    (hle : ∀ a b, le a b = true ↔ f a ≤ f b) {xs : List α} (h : xs.Pairwise (f · < f ·)) :
    sortedBy le xs = xs := by
  have hsorted : (sortedBy le xs).Pairwise (f · ≤ f ·) := by
    refine (pairwise_sortedBy (fun a b ↦ ?_) (fun a b c hab hbc ↦ ?_) xs).imp (hle _ _).mp
    · rw [Bool.or_eq_true, hle, hle]
      exact le_total _ _
    · exact (hle a c).mpr (((hle a b).mp hab).trans ((hle b c).mp hbc))
  have hnodup : (xs.map f).Nodup := List.pairwise_map.mpr (h.imp ne_of_lt)
  refine List.Perm.eq_of_pairwise (fun a b ha hb hab hba ↦ ?_) hsorted (h.imp le_of_lt)
    (perm_sortedBy le xs)
  exact List.inj_on_of_nodup_map hnodup ((perm_sortedBy le xs).mem_iff.mp ha) hb (hab.antisymm hba)

/-- Of links between different nodes each is the last one. -/
theorem SimpleView.lastOfEach_eq_map {links : List Link} (h : links.Pairwise (·.span ≠ ·.span)) :
    lastOfEach links = links.map Link.toEdge := by
  induction links with
  | nil => rfl
  | cons l links ih =>
    cases links with
    | nil => rfl
    | cons m rest =>
      have hne : l.span ≠ m.span := (List.pairwise_cons.mp h).1 m List.mem_cons_self
      rw [lastOfEach_cons_of_ne rest hne, ih h.of_cons]
      rfl

/-- **The simple view of numbered nodes** shows the nodes and the edges as they are. -/
theorem SimpleView.ofContents_numbered (n : ℕ) (h : edges.Pairwise (toLex · < toLex ·)) :
    ofContents (numberedContents n edges) = ⟨(List.range n).map fun i ↦ ⟨i, numberAttributes i⟩,
      edges.map fun e ↦ (linkOfEdge e).toEdge⟩ := by
  have hnodes : (numberedContents n edges).sortedNodes = (numberedContents n edges).nodes :=
    sortedBy_eq_self (f := StoredNode.handle) (fun _ _ ↦ decide_eq_true_iff)
      (List.pairwise_map.mpr List.pairwise_lt_range)
  have hspans : (numberedContents n edges).links.Pairwise fun l m ↦ l.span < m.span :=
    List.pairwise_map.mpr h
  have hlinks : (numberedContents n edges).sortedLinks = (numberedContents n edges).links := by
    refine sortedBy_eq_self (f := fun l ↦ toLex (l.span, l.number)) (fun _ _ ↦ linkAtMost_iff) ?_
    exact hspans.imp fun hlt ↦ Prod.Lex.toLex_lt_toLex.mpr (Or.inl hlt)
  rw [ofContents, hnodes, hlinks, lastOfEach_eq_map (hspans.imp ne_of_lt)]
  exact congrArg _ (List.map_map ..)

end DegreeGraph
