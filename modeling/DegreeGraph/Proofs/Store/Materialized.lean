import DegreeGraph.Proofs.Number.Decimal
import DegreeGraph.Proofs.Store.Generated

/-!
# Edges written to a store

What a store has gained from edges between integers is told by the edges alone, whatever it held
before (`Store.Receives`): a node for every end and every number that had none, and one link for each
edge, so that between two nodes there are as many more links as there are edges between their numbers,
in either direction. Integers have their own nodes because they have their own texts. A second writing
finds all nodes again and only adds the links once more (`Store.Receives.nodes_eq_nil`).

The placing of nodes and edges says which nodes are found and what the links join
(`Layout.Places`). Here it is added which handles the new nodes get and what exactly they show
(`Layout.Makes`), which every step that answers keeps to.
-/

namespace DegreeGraph

open DegreeGraph.Number

variable {α β : Type} {layout : Layout} {s t u : Store} {d : Datum} {h k : ℕ} {n : StoredNode}
  {pairs rows : List (ℤ × ℤ)} {count : Datum} {x y z : ℤ}

/-! ## Steps that answer -/

/-- Whenever a step answers, the store before it and the one behind it are in a relation. -/
def StoreM.Keeps (R : Store → Store → Prop) (x : StoreM α) : Prop :=
  ∀ ⦃s t : Store⦄ ⦃a : α⦄, x.run s = (.ok a, t) → R s t

section Keeps

variable {R : Store → Store → Prop}

theorem StoreM.Keeps.pure (refl : ∀ s, R s s) (a : α) : (pure a : StoreM α).Keeps R := by
  intro s t _ hrun
  cases hrun
  exact refl _

theorem StoreM.Keeps.bind (trans : ∀ s t u, R s t → R t u → R s u) {x : StoreM α}
    {f : α → StoreM β} (hx : x.Keeps R) (hf : ∀ a, (f a).Keeps R) : (x >>= f).Keeps R := by
  intro s u b hrun
  obtain ⟨a, t, hfirst, hrest⟩ := Stepwise.exists_run_of_bind hrun
  exact trans s t u (hx hfirst) (hf a hrest)

/-- What the making of a node and of a link keeps to is kept to by the placing of whole graphs. -/
theorem Store.keeps_place (refl : ∀ s, R s s) (trans : ∀ s t u, R s t → R t u → R s u)
    (hnode : ∀ d, (placeNode layout d).Keeps R)
    (hlink : ∀ h k : ℕ, (createEdge (.int h) (.int k) layout.relationship).Keeps R)
    (count : Datum) (es : List Ends) : (place layout count es).Keeps R := by
  have hnodes (ds : List Datum) : (placeNodes layout ds).Keeps R := by
    induction ds with
    | nil => exact .pure refl ()
    | cons d ds ih => exact (hnode d).bind trans fun _ ↦ ih
  have hedges : (placeEdges layout es).Keeps R := by
    induction es with
    | nil => exact .pure refl ()
    | cons e es ih =>
      refine StoreM.Keeps.bind trans ?_ fun _ ↦ ih
      exact (hnode e.1).bind trans fun a ↦ (hnode e.2).bind trans fun b ↦ hlink a b
  intro s t _ hrun
  obtain ⟨numbered, -, hrun⟩ := StoreM.exists_run_of_lift_bind hrun
  exact (hnodes numbered).bind trans (fun _ ↦ hedges) hrun

end Keeps

/-! ## New nodes -/

namespace Layout

/-- The property that holds the keys of nodes. -/
def propertyIn (layout : Layout) (s : Store) : Datum :=
  if layout.property.holds then layout.property else s.keyProperty

/-- A node has the label of the layout and a text under its property. -/
def Dresses (layout : Layout) (s : Store) (n : StoredNode) : Prop :=
  ∃ property key : String, layout.propertyIn s = .text property
    ∧ n.attributes = [("label", layout.label), (property, .text key)]

/-- All that has been done to the nodes of a store is that some have been made, one after the other,
with the next handles and the label and the property of the layout. -/
structure Makes (layout : Layout) (s t : Store) : Prop where
  keyProperty_eq : t.keyProperty = s.keyProperty
  made : ∃ new, t.contents.nodes = s.contents.nodes ++ new
    ∧ new.map StoredNode.handle = List.range' s.contents.nextHandle new.length
    ∧ t.contents.nextHandle = s.contents.nextHandle + new.length
    ∧ ∀ n ∈ new, layout.Dresses s n

theorem Makes.of_nodes_eq (hproperty : t.keyProperty = s.keyProperty)
    (hnodes : t.contents.nodes = s.contents.nodes)
    (hnext : t.contents.nextHandle = s.contents.nextHandle) : layout.Makes s t where
  keyProperty_eq := hproperty
  made := ⟨[], by rw [hnodes, List.append_nil], rfl, hnext, List.forall_mem_nil _⟩

theorem Makes.trans (hst : layout.Makes s t) (htu : layout.Makes t u) : layout.Makes s u where
  keyProperty_eq := htu.keyProperty_eq.trans hst.keyProperty_eq
  made := by
    obtain ⟨new, hnodes, hhandles, hnext, hdressed⟩ := hst.made
    obtain ⟨new', hnodes', hhandles', hnext', hdressed'⟩ := htu.made
    refine ⟨new ++ new', by rw [hnodes', hnodes, List.append_assoc], ?_, ?_, ?_⟩
    · rw [List.map_append, hhandles, hhandles', hnext, List.length_append, List.range'_append_1]
    · rw [hnext', hnext, List.length_append, Nat.add_assoc]
    · intro n hn
      rcases List.mem_append.mp hn with hn | hn
      · exact hdressed n hn
      · obtain ⟨property, key, hproperty, hattributes⟩ := hdressed' n hn
        rw [propertyIn, hst.keyProperty_eq] at hproperty
        exact ⟨property, key, hproperty, hattributes⟩

end Layout

namespace Store

open Layout

theorem makes_placeNode (layout : Layout) (d : Datum) :
    (placeNode layout d).Keeps layout.Makes := by
  intro s t h hrun
  obtain ⟨k, -, ⟨-, rfl⟩ | ⟨-, -, held, hheld, rfl⟩⟩ :=
    exists_key_of_findOrCreate (isWritable_and_findOrCreate hrun).2
  · exact .of_nodes_eq rfl rfl rfl
  · obtain ⟨hproperty, -⟩ := propertyName_eq_ok_iff.mp hheld
    refine ⟨rfl, [_], rfl, rfl, rfl, List.forall_mem_singleton.mpr ?_⟩
    exact ⟨held, d.display, hproperty, rfl⟩

theorem makes_createEdge (layout : Layout) (a b type : Datum) :
    (createEdge a b type).Keeps layout.Makes := by
  intro s t _ hrun
  rw [createEdge_run] at hrun
  split at hrun
  · cases hrun
  · split at hrun
    · cases hrun
      exact .of_nodes_eq rfl rfl rfl
    · cases hrun

theorem makes_materialize {edges : Datum} {m : ℕ}
    (hrun : (materialize layout edges count).run s = (.ok m, t)) : layout.Makes s t := by
  obtain ⟨-, ends, u, -, -, hbody, rfl⟩ := exists_run_of_materialize hrun
  have hkeeps : (place layout count ends).Keeps layout.Makes :=
    keeps_place (R := layout.Makes) (fun _ ↦ .of_nodes_eq rfl rfl rfl) (fun _ _ _ ↦ .trans)
      (makes_placeNode layout) (fun _ _ ↦ makes_createEdge layout _ _ _) count ends
  -- Opening a transaction and ending it are no changes to nodes.
  exact ⟨(hkeeps hbody).keyProperty_eq, (hkeeps hbody).made⟩

end Store

/-! ## Which integers get nodes -/

namespace Layout

/-- An integer gets a node: it is an end of an edge, or one of the numbers whose nodes are made in any
case. -/
def Asks (layout : Layout) (pairs : List (ℤ × ℤ)) (count : Datum) (z : ℤ) : Prop :=
  (∃ p ∈ pairs, z = p.1 ∨ z = p.2)
    ∨ layout.isolated = true ∧ ∃ n, count.toInt? = some n ∧ 0 ≤ z ∧ z < n

theorem exists_mem_ends_iff : (∃ p ∈ pairs, z = p.1 ∨ z = p.2) ↔ ∃ e ∈ unordered pairs, z ∈ e := by
  simp only [unordered, List.mem_map, exists_exists_and_eq_and, Sym2.mem_iff]

theorem mem_placedData_ints_iff {numbered : List Datum}
    (hnumbered : Store.numberedNodes layout count = .ok numbered) :
    d ∈ Store.placedData numbered ((sortedPairs pairs).map endsOfPair) ↔
      ∃ z, layout.Asks pairs count z ∧ d = .int z := by
  have hends : d ∈ ((sortedPairs pairs).map endsOfPair).flatMap (fun e ↦ [e.1, e.2]) ↔
      ∃ z, (∃ p ∈ pairs, z = p.1 ∨ z = p.2) ∧ d = .int z := by
    have hsorted (z : ℤ) : (∃ p ∈ pairs, z = p.1 ∨ z = p.2)
        ↔ ∃ p ∈ sortedPairs pairs, z = p.1 ∨ z = p.2 := by
      rw [exists_mem_ends_iff, exists_mem_ends_iff]
      simp only [(perm_unordered_sortedPairs pairs).mem_iff]
    simp only [hsorted, List.mem_flatMap, List.mem_map, exists_exists_and_eq_and, endsOfPair,
      List.mem_cons, List.not_mem_nil, or_false]
    constructor
    · rintro ⟨p, hp, rfl | rfl⟩
      · exact ⟨p.1, ⟨p, hp, Or.inl rfl⟩, rfl⟩
      · exact ⟨p.2, ⟨p, hp, Or.inr rfl⟩, rfl⟩
    · rintro ⟨_, ⟨p, hp, rfl | rfl⟩, rfl⟩
      · exact ⟨p, hp, Or.inl rfl⟩
      · exact ⟨p, hp, Or.inr rfl⟩
  rw [Store.placedData, List.mem_append, Store.mem_numberedNodes_iff hnumbered, hends, ← exists_or]
  simp only [Asks, or_and_right, or_comm]

end Layout

/-! ## Links between the nodes of integers -/

/-- A link joins the nodes of two integers exactly if its edge is one between them. -/
theorem Layout.Joins.joins_iff (ht : t.contents.WellFormed) {l : Link} {p : ℤ × ℤ}
    (hjoins : layout.Joins t l (endsOfPair p)) (hx : layout.Finds t (.int x) h)
    (hy : layout.Finds t (.int y) k) : l.joins h k = true ↔ s(p.1, p.2) = s(x, y) := by
  obtain ⟨a, b, ha, hb, hlow, hhigh⟩ := hjoins.ends
  have hiff {z w : ℤ} {i j : ℕ} (hz : layout.Finds t (.int z) i) (hw : layout.Finds t (.int w) j) :
      i = j ↔ z = w := by
    constructor
    · rintro rfl
      exact hz.int_eq ht hw
    · rintro rfl
      exact hz.unique hw
  rw [Link.joins_iff, hlow, hhigh, Sym2.eq_iff, ← hiff ha hx, ← hiff hb hy, ← hiff ha hy,
    ← hiff hb hx]
  omega

theorem countP_joins_eq (ht : t.contents.WellFormed) {links : List Link}
    (hjoins : List.Forall₂ (layout.Joins t) links (rows.map endsOfPair))
    (hx : layout.Finds t (.int x) h) (hy : layout.Finds t (.int y) k) :
    links.countP (·.joins h k) = (unordered rows).count s(x, y) := by
  rw [unordered, List.count, List.countP_map, List.countP_eq_length_filter,
    List.countP_eq_length_filter]
  refine (List.rel_filter ?_ (List.forall₂_map_right_iff.mp hjoins)).length_eq
  intro l p hjoin
  exact (hjoin.joins_iff ht hx hy).trans beq_iff_eq.symm

theorem Layout.Joins.of_inOrder {l : Link} {p : ℤ × ℤ}
    (hjoins : layout.Joins t l (endsOfPair (inOrder p))) : layout.Joins t l (endsOfPair p) := by
  rcases inOrder_eq_or_eq_swap p with hsame | hswap
  · rwa [hsame] at hjoins
  · rw [hswap] at hjoins
    obtain ⟨a, b, ha, hb, hlow, hhigh⟩ := hjoins.ends
    exact ⟨hjoins.type_eq, b, a, hb, ha, hlow.trans (min_comm a b), hhigh.trans (max_comm a b)⟩

theorem exists_joins_of_forall₂ {links : List Link}
    (hjoins : List.Forall₂ (layout.Joins t) links ((sortedPairs pairs).map endsOfPair)) :
    ∀ l ∈ links, ∃ p ∈ pairs, layout.Joins t l (endsOfPair p) := by
  intro l hl
  obtain ⟨i, rfl⟩ := List.get_of_mem hl
  have hjoins := List.forall₂_map_right_iff.mp hjoins
  have hi : i.val < (sortedPairs pairs).length := i.isLt.trans_eq hjoins.length_eq
  have hjoin := hjoins.get i.isLt hi
  obtain ⟨p, hp, heq⟩ := List.mem_map.mp
    ((perm_sortedPairs pairs).mem_iff.mp (List.get_mem _ ⟨i.val, hi⟩))
  rw [← heq] at hjoin
  exact ⟨p, hp, hjoin.of_inOrder⟩

/-! ## What a store gains -/

/-- A store has gained what edges between integers over a number of nodes ask for, and what it held
before is still there: the nodes that were missing, with the next handles, and one link for each edge
and no others. -/
structure Store.Receives (layout : Layout) (pairs : List (ℤ × ℤ)) (count : Datum) (s t : Store)
    (nodes : List StoredNode) (links : List Link) : Prop extends s.FollowsWithin t where
  nodes_eq : t.contents.nodes = s.contents.nodes ++ nodes
  links_eq : t.contents.links = s.contents.links ++ links
  handles_eq : nodes.map StoredNode.handle = List.range' s.contents.nextHandle nodes.length
  nextHandle_eq : t.contents.nextHandle = s.contents.nextHandle + nodes.length
  numbered : ∀ n ∈ nodes, ∃ (z : ℤ) (property : String), layout.Finds t (.int z) n.handle
    ∧ layout.propertyIn s = .text property
    ∧ n.attributes = [("label", layout.label), (property, .text (Datum.int z).display)]
  made_iff : ∀ z : ℤ, (∃ n ∈ nodes, layout.Finds t (.int z) n.handle) ↔
    layout.Asks pairs count z ∧ layout.Lacks s (.int z)
  found : ∀ z : ℤ, layout.Asks pairs count z → ∃ h, layout.Finds t (.int z) h
  find_iff : ∀ (label key property : Datum) (h : ℕ),
    (find label key property).run t = (.ok (some h), t) ↔
      (find label key property).run s = (.ok (some h), s)
        ∨ ∃ n ∈ nodes, n.handle = h ∧ t.Shows label key property n
  length_eq : links.length = pairs.length
  type_eq : ∀ l ∈ links, l.type = layout.relationship
  joins : ∀ l ∈ links, ∃ p ∈ pairs, layout.Joins t l (.int p.1, .int p.2)
  countLinks_eq : ∀ (x y : ℤ) (h k : ℕ), layout.Finds t (.int x) h → layout.Finds t (.int y) k →
    t.contents.countLinks h k = s.contents.countLinks h k + (unordered pairs).count s(x, y)

/-- What is found afterwards was found before or is new. -/
theorem Store.Follows.find_run_iff (hs : s.contents.WellFormed) (hst : s.Follows t)
    {new : List StoredNode} (hnodes : t.contents.nodes = s.contents.nodes ++ new)
    (label key property : Datum) (h : ℕ) :
    (find label key property).run t = (.ok (some h), t) ↔
      (find label key property).run s = (.ok (some h), s)
        ∨ ∃ n ∈ new, n.handle = h ∧ t.Shows label key property n := by
  have hshows (n : StoredNode) : t.Shows label key property n ↔ s.Shows label key property n := by
    rw [Shows, Shows, nameOf, nameOf, hst.keyProperty_eq]
  rw [find_run_eq_some_iff_shows (hst.grows.wellFormed hs), find_run_eq_some_iff_shows hs, hnodes]
  simp only [hshows, List.mem_append, or_and_right, exists_or]

/-- A text in the attributes of the node of a datum is that of the datum. -/
theorem Layout.Finds.text_eq (ht : t.contents.WellFormed) (hn : n ∈ t.contents.nodes)
    (hfinds : layout.Finds t d n.handle) {label : Datum} {property key : String}
    (hattributes : n.attributes = [("label", label), (property, .text key)]) : key = d.display := by
  obtain ⟨k, hkey, hfind⟩ := finds_iff.mp hfinds
  obtain ⟨m, hm, heq, hdescribes⟩ := ht.exists_node_of_find? hfind
  obtain rfl := ht.eq_of_handle_eq hm hn heq
  obtain ⟨label', property', key', hattributes', -, -, -, hshown⟩ := hdescribes
  rw [hattributes] at hattributes'
  simp only [List.cons.injEq, Prod.mk.injEq, true_and, and_true] at hattributes'
  obtain ⟨-, -, rfl⟩ := hattributes'
  have hasked := (Store.nodeKey_eq_ok_iff.mp hkey).2.2
  exact Key.text.inj (Except.ok.inj (hshown.trans hasked.symm))

theorem Layout.Places.receives (hs : s.contents.WellFormed) {numbered : List Datum}
    (hnumbered : Store.numberedNodes layout count = .ok numbered) (hmakes : layout.Makes s t)
    (hplaces : layout.Places (Store.placedData numbered ((sortedPairs pairs).map endsOfPair))
      ((sortedPairs pairs).map endsOfPair) s t) :
    ∃ nodes links, s.Receives layout pairs count t nodes links := by
  obtain ⟨nodes, hnodes, hmade⟩ := hplaces.nodes
  obtain ⟨links, hlinks, hjoins⟩ := hplaces.links
  obtain ⟨new, hnew, hhandles, hnext, hdressed⟩ := hmakes.made
  obtain rfl := List.append_cancel_left (hnodes.symm.trans hnew)
  have ht := hplaces.grows.wellFormed hs
  have hplaced (d : Datum) :
      d ∈ Store.placedData numbered ((sortedPairs pairs).map endsOfPair) ↔
        ∃ z, layout.Asks pairs count z ∧ d = .int z := mem_placedData_ints_iff hnumbered
  have hjoined := exists_joins_of_forall₂ hjoins
  refine ⟨nodes, links, hplaces.toFollowsWithin, hnodes, hlinks, hhandles, hnext, ?numbered, ?made,
    ?found, hplaces.toFollows.find_run_iff hs hnodes, ?length, ?types, hjoined, ?countLinks⟩
  case numbered =>
    intro n hn
    obtain ⟨d, hd, -, hfinds⟩ := hmade n hn
    obtain ⟨z, -, rfl⟩ := (hplaced d).mp hd
    obtain ⟨property, key, hproperty, hattributes⟩ := hdressed n hn
    have hmem : n ∈ t.contents.nodes := hnodes ▸ List.mem_append_right _ hn
    obtain rfl := hfinds.text_eq ht hmem hattributes
    exact ⟨z, property, hfinds, hproperty, hattributes⟩
  case made =>
    intro z
    constructor
    · rintro ⟨n, hn, hfinds⟩
      obtain ⟨d, hd, hlacks, hfinds'⟩ := hmade n hn
      obtain ⟨w, hw, rfl⟩ := (hplaced d).mp hd
      obtain rfl := hfinds.int_eq ht hfinds'
      exact ⟨hw, hlacks⟩
    · rintro ⟨hasks, hlacks⟩
      obtain ⟨h, hh⟩ := hplaces.found _ ((hplaced _).mpr ⟨z, hasks, rfl⟩)
      obtain ⟨n, hn, rfl⟩ := hlacks.exists_new hs hplaces.toFollows hnodes hh
      exact ⟨n, hn, hh⟩
  case found =>
    intro z hasks
    exact hplaces.found _ ((hplaced _).mpr ⟨z, hasks, rfl⟩)
  case length =>
    rw [hjoins.length_eq, List.length_map, length_sortedPairs]
  case types =>
    intro l hl
    obtain ⟨_, _, hjoin⟩ := hjoined l hl
    exact hjoin.type_eq
  case countLinks =>
    intro x y h k hx hy
    rw [Contents.countLinks, Contents.countLinks, hlinks, List.countP_append,
      countP_joins_eq ht hjoins hx hy, (perm_unordered_sortedPairs pairs).count_eq]

/-- What a second writing of the same edges adds are links only. -/
theorem Store.Receives.nodes_eq_nil {nodes nodes' : List StoredNode} {links links' : List Link}
    (hst : s.Receives layout pairs count t nodes links)
    (htu : t.Receives layout pairs count u nodes' links') : nodes' = [] := by
  refine List.eq_nil_iff_forall_not_mem.mpr fun n hn ↦ ?_
  obtain ⟨z, -, hfinds, -⟩ := htu.numbered n hn
  obtain ⟨hasks, hlacks⟩ := (htu.made_iff z).mp ⟨n, hn, hfinds⟩
  obtain ⟨h, hh⟩ := hst.found z hasks
  exact hh.not_lacks hlacks

/-! ## Written edges -/

namespace Store

/-- Edges have been written completely, or nothing has happened to the store but attempts to make
links that failed. -/
structure Materialized (layout : Layout) (pairs : List (ℤ × ℤ)) (count : Datum) (s : Store)
    (outcome : Except Fault ℕ × Store) : Prop where
  failed : ∀ fault, outcome.1 = .error fault →
    outcome.2 = { s with attempts := outcome.2.attempts }
  answered : ∀ m, outcome.1 = .ok m → m = pairs.length
    ∧ (∀ z : ℤ, layout.Asks pairs count z → isWritable z = true)
    ∧ ∃ nodes links, s.Receives layout pairs count outcome.2 nodes links

theorem receives_of_materialize (hs : s.contents.WellFormed) {m : ℕ}
    (hrun : (materialize layout (edgesDatum pairs) count).run s = (.ok m, t)) : m = pairs.length
      ∧ (∀ z : ℤ, layout.Asks pairs count z → isWritable z = true)
      ∧ ∃ nodes links, s.Receives layout pairs count t nodes links := by
  obtain ⟨ends, numbered, hends, hnumbered, hm, hplaces⟩ := places_materialize hs hrun
  obtain rfl := Except.ok.inj (hends.symm.trans (sortedEnds_edgesDatum pairs))
  refine ⟨?_, fun z hasks ↦ ?_, hplaces.receives hs hnumbered (makes_materialize hrun)⟩
  · rw [hm, List.length_map, length_sortedPairs]
  · exact hplaces.writable _ ((Layout.mem_placedData_ints_iff hnumbered).mpr ⟨z, hasks, rfl⟩)

/-- **What the writing of edges does to a store, exactly.** In every state of a store, under every
layout and for all edges between integers, in any direction, repeated or not, loops among them: an
answer is the number of the edges and means that the store has gained the nodes that were missing and
a link for each edge, and nothing else; a failure means that it has gained nothing. There is no answer
where a node is asked for whose number has too many digits to be written. -/
theorem Reached.materialized (hs : s.Reached) (layout : Layout) (pairs : List (ℤ × ℤ))
    (count : Datum) : s.Materialized layout pairs count
      ((materialize layout (edgesDatum pairs) count).run s) where
  failed fault hfault := (builds_materialize layout _ count s).eq_of_contents
    (isAtomic_materialize layout _ count s fault hfault)
  answered _ hm := receives_of_materialize hs.wellFormed (Prod.ext hm rfl)

/-- Three edges, one of them a loop and one the reverse of another, are written to a store that has a
node for one of the numbers. An edge to a number of too many digits is not. -/
theorem Reached.materialized_pairs :
    let s : Store :=
      ((Step.act (.findOrCreate (.text "Node") (.text "2") .null) false).run {}).store
    let outcome := (materialize {} (edgesDatum [(2, 1), (3, 3), (1, 2)]) .null).run s
    s.Reached ∧ outcome.1 = .ok 3
      ∧ (∃ nodes links, s.Receives {} [(2, 1), (3, 3), (1, 2)] .null outcome.2 nodes links)
      ∧ ∃ z : ℤ, isWritable z = false ∧ ∃ fault,
        ((materialize {} (edgesDatum [(2, z)]) .null).run s).1 = .error fault
          ∧ ((materialize {} (edgesDatum [(2, z)]) .null).run s).2.contents = s.contents := by
  have hanswer : ((materialize {} (edgesDatum [(2, 1), (3, 3), (1, 2)]) .null).run
      ((Step.act (.findOrCreate (.text "Node") (.text "2") .null) false).run {}).store).1.toOption
        = some 3 := by decide +kernel
  intro s outcome
  have hs : s.Reached := (Reached.empty (.text "name") none).step _
  have hok : outcome.1 = .ok 3 := by
    change outcome.1.toOption = some 3 at hanswer
    cases h : outcome.1 with
    | error fault =>
      rw [h] at hanswer
      cases hanswer
    | ok m =>
      rw [h] at hanswer
      exact congrArg Except.ok (Option.some.inj hanswer)
  obtain ⟨z, hz⟩ : ∃ z, isWritable z = false := ⟨_, isWritable_ten_pow⟩
  refine ⟨hs, hok, ((hs.materialized {} _ .null).answered 3 hok).2.2, z, hz, ?_⟩
  have hlong := hs.materialized {} [(2, z)] .null
  cases hend : ((materialize {} (edgesDatum [(2, z)]) .null).run s).1 with
  | error fault =>
    have hstore := hlong.failed fault hend
    exact ⟨fault, rfl, by rw [hstore]⟩
  | ok m =>
    have hasks : ({} : Layout).Asks [(2, z)] .null z := .inl ⟨_, List.mem_singleton_self _, .inr rfl⟩
    cases hz.symm.trans ((hlong.answered m hend).2.1 z hasks)

end Store

end DegreeGraph
