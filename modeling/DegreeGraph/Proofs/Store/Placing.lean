import DegreeGraph.Proofs.Store.Reached

/-!
# What placing nodes and edges adds to a store

`Layout.Places` says what a store has gained when some data have been placed as nodes and some
pairs of data as edges: every datum has its node, no node is new but those of data that had none,
and there is one new link for each edge, in order, between the nodes of its ends. What is placed
after one another is placed together (`Layout.Places.trans`), so a writer of a whole graph is
settled by a look at the placing of one node and of one link.

Whatever fails on the way is inside a transaction, so that a graph is written completely or not at
all.
-/

namespace DegreeGraph

variable {α β : Type} {layout : Layout} {s t u : Store} {d d' : Datum} {ds ds' : List Datum}
  {e : Ends} {es es' : List Ends} {h h' : ℕ} {n : StoredNode}

theorem StoreM.exists_run_of_lift_bind {answer : Except Fault α} {f : α → StoreM β} {b : β}
    (hrun : (Store.lift answer >>= f).run s = (.ok b, u)) :
    ∃ a, answer = .ok a ∧ (f a).run s = (.ok b, u) := by
  rw [Stepwise.run_bind, StoreM.run_lift] at hrun
  cases answer with
  | error fault => cases hrun
  | ok a => exact ⟨a, rfl, hrun⟩

/-! ## The node of a datum -/

theorem Datum.shown_eq_ok_iff {text : String} :
    d.shown = .ok text ↔ d.isWritable = true ∧ d.display = text := by
  rw [shown]
  split
  · rename_i hwritable
    rw [Except.ok.injEq, and_iff_right hwritable]
  · rename_i hlong
    exact ⟨nofun, fun h ↦ absurd h.1 hlong⟩

theorem Store.placeNode_run (hd : d.isWritable = true) : (placeNode layout d).run s
    = (findOrCreate layout.label (.text d.display) layout.property).run s := by
  rw [placeNode, Stepwise.run_bind, StoreM.run_lift, Datum.shown_eq_ok_iff.mpr ⟨hd, rfl⟩]

namespace Layout

/-- The node of a datum has a handle in a store. -/
def Finds (layout : Layout) (s : Store) (d : Datum) (h : ℕ) : Prop :=
  (Store.find layout.label (.text d.display) layout.property).run s = (.ok (some h), s)

/-- A datum has no node in a store. -/
def Lacks (layout : Layout) (s : Store) (d : Datum) : Prop :=
  (Store.find layout.label (.text d.display) layout.property).run s = (.ok none, s)

theorem finds_iff : layout.Finds s d h ↔ ∃ k,
    (s.nameOf layout.label (.text d.display) layout.property).nodeKey = .ok k
      ∧ s.contents.find? k = some h := Store.find_run_eq_ok_iff

theorem lacks_iff : layout.Lacks s d ↔ ∃ k,
    (s.nameOf layout.label (.text d.display) layout.property).nodeKey = .ok k
      ∧ s.contents.find? k = none := Store.find_run_eq_ok_iff

theorem Finds.unique (hh : layout.Finds s d h) (hh' : layout.Finds s d h') : h = h' :=
  Option.some.inj (Except.ok.inj (Prod.mk.inj (hh.symm.trans hh')).1)

theorem Finds.of_grows (hgrows : s.contents.Grows t.contents)
    (hproperty : t.keyProperty = s.keyProperty) (hh : layout.Finds s d h) :
    layout.Finds t d h := by
  obtain ⟨k, hkey, hfind⟩ := finds_iff.mp hh
  refine finds_iff.mpr ⟨k, ?_, hgrows.find?_eq_some hfind⟩
  rwa [Store.nameOf, hproperty]

theorem Lacks.of_grows (hgrows : s.contents.Grows t.contents)
    (hproperty : t.keyProperty = s.keyProperty) (hd : layout.Lacks t d) : layout.Lacks s d := by
  obtain ⟨k, hkey, hnone⟩ := lacks_iff.mp hd
  rw [Store.nameOf, hproperty] at hkey
  refine lacks_iff.mpr ⟨k, hkey, ?_⟩
  cases hfind : s.contents.find? k with
  | none => rfl
  | some h =>
    rw [hgrows.find?_eq_some hfind] at hnone
    cases hnone

/-- The texts of two data that have one node are the same. -/
theorem Finds.display_eq (hs : s.contents.WellFormed) (hd : layout.Finds s d h)
    (hd' : layout.Finds s d' h) : d.display = d'.display := by
  obtain ⟨k, hkey, hfind⟩ := finds_iff.mp hd
  obtain ⟨k', hkey', hfind'⟩ := finds_iff.mp hd'
  obtain rfl := hs.find?_inj hfind hfind'
  have htext := (Store.nodeKey_eq_ok_iff.mp hkey).2.2
  have htext' := (Store.nodeKey_eq_ok_iff.mp hkey').2.2
  exact Key.text.inj (Except.ok.inj (htext.trans htext'.symm))

theorem Finds.exists_node (hs : s.contents.WellFormed) (hd : layout.Finds s d h) :
    ∃ n ∈ s.contents.nodes, n.handle = h := by
  obtain ⟨k, -, hfind⟩ := finds_iff.mp hd
  obtain ⟨n, hn, heq, -⟩ := hs.exists_node_of_find? hfind
  exact ⟨n, hn, heq⟩

/-- A node that was there before was the node of the same data. -/
theorem Finds.of_mem_nodes (hs : s.contents.WellFormed) (hst : s.Follows t)
    (hn : n ∈ s.contents.nodes) (hd : layout.Finds t d n.handle) :
    layout.Finds s d n.handle := by
  obtain ⟨k, hkey, hfind⟩ := finds_iff.mp hd
  obtain ⟨k', hfind', -⟩ := hs.exists_key hn
  have heq := (hst.grows.wellFormed hs).find?_inj hfind (hst.grows.find?_eq_some hfind')
  rw [Store.nameOf, hst.keyProperty_eq] at hkey
  exact finds_iff.mpr ⟨k, hkey, heq ▸ hfind'⟩

theorem Finds.not_lacks (hd : layout.Finds s d h) : ¬layout.Lacks s d := by
  intro hlacks
  cases hd.symm.trans hlacks

/-- A datum that had no node has got a new one. -/
theorem Lacks.exists_new (hs : s.contents.WellFormed) (hst : s.Follows t) {new : List StoredNode}
    (hnodes : t.contents.nodes = s.contents.nodes ++ new) (hlacks : layout.Lacks s d)
    (hfinds : layout.Finds t d h) : ∃ n ∈ new, n.handle = h := by
  obtain ⟨n, hn, rfl⟩ := hfinds.exists_node (hst.grows.wellFormed hs)
  rw [hnodes] at hn
  rcases List.mem_append.mp hn with hold | hnew
  · exact absurd hlacks (hfinds.of_mem_nodes hs hst hold).not_lacks
  · exact ⟨n, hnew, rfl⟩

/-- A link joins the nodes of the ends of an edge. -/
structure Joins (layout : Layout) (s : Store) (l : Link) (e : Ends) : Prop where
  type_eq : l.type = layout.relationship
  ends : ∃ h k, layout.Finds s e.1 h ∧ layout.Finds s e.2 k ∧ l.low = min h k ∧ l.high = max h k

theorem Joins.of_grows {l : Link} (hgrows : s.contents.Grows t.contents)
    (hproperty : t.keyProperty = s.keyProperty) (hjoins : layout.Joins s l e) :
    layout.Joins t l e := by
  obtain ⟨h, k, hh, hk, hends⟩ := hjoins.ends
  exact ⟨hjoins.type_eq, h, k, hh.of_grows hgrows hproperty, hk.of_grows hgrows hproperty, hends⟩

/-! ## What is gained -/

/-- Data have been placed as nodes and pairs of data as edges, and nothing else has been done. -/
structure Places (layout : Layout) (ds : List Datum) (es : List Ends) (s t : Store) : Prop
    extends s.FollowsWithin t where
  writable : ∀ d ∈ ds, d.isWritable = true
  found : ∀ d ∈ ds, ∃ h, layout.Finds t d h
  nodes : ∃ new, t.contents.nodes = s.contents.nodes ++ new
    ∧ ∀ n ∈ new, ∃ d ∈ ds, layout.Lacks s d ∧ layout.Finds t d n.handle
  links : ∃ new, t.contents.links = s.contents.links ++ new
    ∧ List.Forall₂ (layout.Joins t) new es

theorem Places.refl (layout : Layout) (s : Store) : layout.Places [] [] s s where
  toFollowsWithin := .refl s
  writable := List.forall_mem_nil _
  found := List.forall_mem_nil _
  nodes := ⟨[], (List.append_nil _).symm, List.forall_mem_nil _⟩
  links := ⟨[], (List.append_nil _).symm, .nil⟩

theorem Places.trans (hst : layout.Places ds es s t) (htu : layout.Places ds' es' t u) :
    layout.Places (ds ++ ds') (es ++ es') s u where
  toFollowsWithin := hst.toFollowsWithin.trans htu.toFollowsWithin
  writable d hd := (List.mem_append.mp hd).elim (hst.writable d) (htu.writable d)
  found d hd := by
    rcases List.mem_append.mp hd with hd | hd
    · obtain ⟨h, hh⟩ := hst.found d hd
      exact ⟨h, hh.of_grows htu.grows htu.keyProperty_eq⟩
    · exact htu.found d hd
  nodes := by
    obtain ⟨new, hnew, hof⟩ := hst.nodes
    obtain ⟨new', hnew', hof'⟩ := htu.nodes
    refine ⟨new ++ new', by rw [hnew', hnew, List.append_assoc], fun n hn ↦ ?_⟩
    rcases List.mem_append.mp hn with hn | hn
    · obtain ⟨d, hd, hlacks, hfinds⟩ := hof n hn
      exact ⟨d, List.mem_append_left _ hd, hlacks, hfinds.of_grows htu.grows htu.keyProperty_eq⟩
    · obtain ⟨d, hd, hlacks, hfinds⟩ := hof' n hn
      exact ⟨d, List.mem_append_right _ hd, hlacks.of_grows hst.grows hst.keyProperty_eq, hfinds⟩
  links := by
    obtain ⟨new, hnew, hjoins⟩ := hst.links
    obtain ⟨new', hnew', hjoins'⟩ := htu.links
    refine ⟨new ++ new', by rw [hnew', hnew, List.append_assoc], List.rel_append ?_ hjoins'⟩
    exact hjoins.imp fun _ _ hjoin ↦ hjoin.of_grows htu.grows htu.keyProperty_eq

/-- Neither the opening of a transaction nor its end is seen by who looks for nodes. -/
theorem Places.committed (hs : s.inTransaction = false)
    (hplaces : layout.Places ds es s.opened t) : layout.Places ds es s t.committed := by
  have hopened : s.contents.Grows s.opened.contents := .refl _
  have hcommitted : t.contents.Grows t.committed.contents := .refl _
  refine ⟨hplaces.toFollowsWithin.closed hs (.ok ()), hplaces.writable, fun d hd ↦ ?_, ?_, ?_⟩
  · obtain ⟨h, hh⟩ := hplaces.found d hd
    exact ⟨h, hh.of_grows hcommitted rfl⟩
  · obtain ⟨new, hnew, hof⟩ := hplaces.nodes
    refine ⟨new, hnew, fun n hn ↦ ?_⟩
    obtain ⟨d, hd, hlacks, hfinds⟩ := hof n hn
    exact ⟨d, hd, hlacks.of_grows hopened rfl, hfinds.of_grows hcommitted rfl⟩
  · obtain ⟨new, hnew, hjoins⟩ := hplaces.links
    exact ⟨new, hnew, hjoins.imp fun _ _ hjoin ↦ hjoin.of_grows hcommitted rfl⟩

end Layout

/-! ## Single steps -/

namespace Store

open Layout

theorem exists_key_of_findOrCreate {label key property : Datum}
    (hrun : (findOrCreate label key property).run s = (.ok h, t)) :
    ∃ k, (s.nameOf label key property).nodeKey = .ok k
      ∧ (s.contents.find? k = some h ∧ t = s
        ∨ s.contents.find? k = none ∧ h = s.contents.nextHandle ∧ ∃ held,
          propertyName (s.nameOf label key property).property = .ok held
            ∧ t = s.withContents (s.contents.addNode k
              ((s.nameOf label key property).attributes held))) := by
  rw [findOrCreate_run] at hrun
  simp only at hrun
  split at hrun
  · cases hrun
  · rename_i k hkey
    split at hrun
    · rename_i hfind
      cases hrun
      exact ⟨k, hkey, Or.inl ⟨hfind, rfl⟩⟩
    · rename_i hnone
      split at hrun
      · cases hrun
      · rename_i held hheld
        cases hrun
        exact ⟨k, hkey, Or.inr ⟨hnone, rfl, held, hheld, rfl⟩⟩

/-- A datum becomes a node under its text, which must be there. -/
theorem isWritable_and_findOrCreate (hrun : (placeNode layout d).run s = (.ok h, t)) :
    d.isWritable = true
      ∧ (findOrCreate layout.label (.text d.display) layout.property).run s = (.ok h, t) := by
  obtain ⟨key, hkey, hrun⟩ := StoreM.exists_run_of_lift_bind hrun
  obtain ⟨hwritable, rfl⟩ := Datum.shown_eq_ok_iff.mp hkey
  exact ⟨hwritable, hrun⟩

theorem places_placeNode (hrun : (placeNode layout d).run s = (.ok h, t)) :
    layout.Places [d] [] s t ∧ layout.Finds t d h := by
  have hfollows : s.FollowsWithin t := by
    have hbuilds := builds_placeNode layout d s
    rwa [hrun] at hbuilds
  obtain ⟨hwritable, hrun⟩ := isWritable_and_findOrCreate hrun
  have hdatum : ∀ d' ∈ [d], d'.isWritable = true := List.forall_mem_singleton.mpr hwritable
  obtain ⟨k, hkey, ⟨hfind, rfl⟩ | ⟨hnone, rfl, held, -, rfl⟩⟩ := exists_key_of_findOrCreate hrun
  · have hfinds : layout.Finds t d h := finds_iff.mpr ⟨k, hkey, hfind⟩
    refine ⟨⟨hfollows, hdatum, List.forall_mem_singleton.mpr ⟨h, hfinds⟩, ?_, ?_⟩, hfinds⟩
    · exact ⟨[], (List.append_nil _).symm, List.forall_mem_nil _⟩
    · exact ⟨[], (List.append_nil _).symm, .nil⟩
  · -- What the new node shows makes no difference here.
    generalize NodeName.attributes _ held = attributes at hfollows ⊢
    have hfinds : layout.Finds (s.withContents (s.contents.addNode k attributes)) d
        s.contents.nextHandle :=
      finds_iff.mpr ⟨k, hkey, (Contents.find?_addNode _ _ _ _).trans (if_pos rfl)⟩
    refine ⟨⟨hfollows, hdatum, List.forall_mem_singleton.mpr ⟨_, hfinds⟩, ?_, ?_⟩, hfinds⟩
    · refine ⟨[⟨s.contents.nextHandle, attributes⟩], rfl, List.forall_mem_singleton.mpr ?_⟩
      exact ⟨d, List.mem_singleton_self d, lacks_iff.mpr ⟨k, hkey, hnone⟩, hfinds⟩
    · exact ⟨[], (List.append_nil _).symm, .nil⟩

theorem places_createEdge (hs : s.contents.WellFormed) {k : ℕ} (hh : layout.Finds s e.1 h)
    (hk : layout.Finds s e.2 k)
    (hrun : (createEdge (.int h) (.int k) layout.relationship).run s = (.ok (), t)) :
    layout.Places [] [e] s t := by
  have hfollows : s.FollowsWithin t := by
    have hbuilds := builds_createEdge (.int h) (.int k) layout.relationship s
    rwa [hrun] at hbuilds
  have hhas {i : ℕ} {d : Datum} (hi : layout.Finds s d i) : s.handle? (.int i) = some i := by
    obtain ⟨_, -, hfind⟩ := finds_iff.mp hi
    exact handle?_int (hs.hasHandle_of_find? hfind)
  rw [createEdge_run, hhas hh, hhas hk] at hrun
  split at hrun
  · cases hrun
  · cases hrun
    refine ⟨hfollows, List.forall_mem_nil _, List.forall_mem_nil _,
      ⟨[], (List.append_nil _).symm, List.forall_mem_nil _⟩,
      _, rfl, .cons ⟨rfl, h, k, ?_, ?_, rfl, rfl⟩ .nil⟩
    · exact hh.of_grows hfollows.grows hfollows.keyProperty_eq
    · exact hk.of_grows hfollows.grows hfollows.keyProperty_eq

/-! ## Whole graphs -/

theorem places_placeNodes (hrun : (placeNodes layout ds).run s = (.ok (), t)) :
    layout.Places ds [] s t := by
  induction ds generalizing s with
  | nil =>
    cases hrun
    exact .refl layout _
  | cons d ds ih =>
    obtain ⟨h, s', hnode, hrest⟩ := Stepwise.exists_run_of_bind hrun
    exact (places_placeNode hnode).1.trans (ih hrest)

theorem places_placeEdge (hs : s.contents.WellFormed)
    (hrun : (placeEdge layout e).run s = (.ok (), t)) : layout.Places [e.1, e.2] [e] s t := by
  obtain ⟨h, s₁, hfirst, hrun⟩ := Stepwise.exists_run_of_bind hrun
  obtain ⟨k, s₂, hsecond, hlink⟩ := Stepwise.exists_run_of_bind hrun
  obtain ⟨hplaces, hh⟩ := places_placeNode hfirst
  obtain ⟨hplaces', hk⟩ := places_placeNode hsecond
  -- The first node is still found after the second one has been made.
  have hnodes := hplaces.trans hplaces'
  exact hnodes.trans (places_createEdge (hnodes.grows.wellFormed hs)
    (hh.of_grows hplaces'.grows hplaces'.keyProperty_eq) hk hlink)

theorem places_placeEdges (hs : s.contents.WellFormed)
    (hrun : (placeEdges layout es).run s = (.ok (), t)) :
    layout.Places (es.flatMap fun e ↦ [e.1, e.2]) es s t := by
  induction es generalizing s with
  | nil =>
    cases hrun
    exact .refl layout _
  | cons e es ih =>
    obtain ⟨_, s', hedge, hrest⟩ := Stepwise.exists_run_of_bind hrun
    have hfirst := places_placeEdge hs hedge
    exact hfirst.trans (ih (hfirst.grows.wellFormed hs) hrest)

theorem mem_numberedNodes_iff {count : Datum} {numbered : List Datum}
    (hnumbered : numberedNodes layout count = .ok numbered) : d ∈ numbered ↔
      ∃ z, (layout.isolated = true ∧ ∃ n, count.toInt? = some n ∧ 0 ≤ z ∧ z < n) ∧ d = .int z := by
  unfold numberedNodes at hnumbered
  by_cases hisolated : layout.isolated = true
  · rw [if_neg (by simp [hisolated])] at hnumbered
    split at hnumbered
    · cases hnumbered
      simp [Datum.toInt?]
    · cases hnumbered
    · rename_i n _ hn
      rw [← Except.ok.inj hnumbered, List.mem_map]
      constructor
      · rintro ⟨i, hi, rfl⟩
        have hlt := List.mem_range.mp hi
        exact ⟨i, ⟨hisolated, n, hn, by omega, by omega⟩, rfl⟩
      · rintro ⟨z, ⟨-, n', hn', hpos, hlt⟩, rfl⟩
        obtain rfl := Option.some.inj (hn.symm.trans hn')
        exact ⟨z.toNat, List.mem_range.mpr (by omega), by rw [Int.toNat_of_nonneg hpos]⟩
  · rw [if_pos (by simpa using hisolated)] at hnumbered
    cases hnumbered
    simp [hisolated]

/-- The data that become nodes when edges are placed over a number of nodes. -/
def placedData (numbered : List Datum) (es : List Ends) : List Datum :=
  numbered ++ es.flatMap fun e ↦ [e.1, e.2]

theorem places_place (hs : s.contents.WellFormed) {count : Datum}
    (hrun : (place layout count es).run s = (.ok (), t)) :
    ∃ numbered, numberedNodes layout count = .ok numbered
      ∧ layout.Places (placedData numbered es) es s t := by
  obtain ⟨numbered, hnumbered, hrun⟩ := StoreM.exists_run_of_lift_bind hrun
  obtain ⟨_, s', hnodes, hedges⟩ := Stepwise.exists_run_of_bind hrun
  have hfirst := places_placeNodes hnodes
  exact ⟨numbered, hnumbered,
    hfirst.trans (places_placeEdges (hfirst.grows.wellFormed hs) hedges)⟩

/-! ## In one transaction -/

theorem exists_run_of_transaction {body : StoreM α} {a : α}
    (hrun : (transaction body).run s = (.ok a, t)) :
    s.inTransaction = false ∧ ∃ u, body.run s.opened = (.ok a, u) ∧ t = u.committed := by
  rw [transaction_run] at hrun
  split at hrun
  · cases hrun
  · rename_i hs
    obtain ⟨hanswer, rfl⟩ := Prod.mk.inj hrun
    refine ⟨Bool.eq_false_iff.mpr hs, (body.run s.opened).2, Prod.ext hanswer rfl, ?_⟩
    rw [hanswer]
    rfl

theorem exists_run_of_materialize {edges count : Datum} {m : ℕ}
    (hrun : (materialize layout edges count).run s = (.ok m, t)) :
    s.inTransaction = false ∧ ∃ ends u, sortedEnds edges = .ok ends ∧ m = ends.length
      ∧ (place layout count ends).run s.opened = (.ok (), u) ∧ t = u.committed := by
  obtain ⟨ends, hends, hrun⟩ := StoreM.exists_run_of_lift_bind hrun
  obtain ⟨_, s', hplace, hrun⟩ := Stepwise.exists_run_of_bind hrun
  cases hrun
  obtain ⟨hclosed, u, hbody, rfl⟩ := exists_run_of_transaction hplace
  exact ⟨hclosed, ends, u, hends, rfl, hbody, rfl⟩

/-- **A writer that answers has placed everything.** -/
theorem places_materialize (hs : s.contents.WellFormed) {edges count : Datum} {m : ℕ}
    (hrun : (materialize layout edges count).run s = (.ok m, t)) :
    ∃ ends numbered, sortedEnds edges = .ok ends ∧ numberedNodes layout count = .ok numbered
      ∧ m = ends.length ∧ layout.Places (placedData numbered ends) ends s t := by
  obtain ⟨hclosed, ends, u, hends, hm, hbody, rfl⟩ := exists_run_of_materialize hrun
  obtain ⟨numbered, hnumbered, hplaces⟩ := places_place (s := s.opened) hs hbody
  exact ⟨ends, numbered, hends, hnumbered, hm, hplaces.committed hclosed⟩

end Store

/-! ## All or nothing -/

/-- Steps that fail leave the contents as they were. -/
def StoreM.IsAtomic (x : StoreM α) : Prop :=
  ∀ (s : Store) (fault : Fault), (x.run s).1 = .error fault → (x.run s).2.contents = s.contents

namespace StoreM.IsAtomic

theorem transaction (body : StoreM α) : IsAtomic (Store.transaction body) := by
  intro s fault
  rw [Store.transaction_run]
  split
  · exact fun _ ↦ rfl
  · intro hfault
    change (body.run s.opened).1 = .error fault at hfault
    change ((body.run s.opened).2.closed s.contents (body.run s.opened).1).contents = _
    rw [hfault]
    rfl

theorem lift_bind (answer : Except Fault α) {f : α → StoreM β} (hf : ∀ a, (f a).IsAtomic) :
    (Store.lift answer >>= f).IsAtomic := by
  intro s fault
  rw [Stepwise.run_bind, StoreM.run_lift]
  cases answer with
  | error _ => exact fun _ ↦ rfl
  | ok a => exact hf a s fault

/-- What follows a step that is atomic must not fail any more. -/
theorem bind_pure {x : StoreM α} (hx : x.IsAtomic) (f : α → β) :
    (x >>= fun a ↦ Pure.pure (f a)).IsAtomic := by
  intro s fault
  have hfirst := hx s
  rw [Stepwise.run_bind]
  rcases hrun : x.run s with ⟨_ | a, t⟩
  · rw [hrun] at hfirst
    exact fun _ ↦ hfirst _ rfl
  · nofun

end StoreM.IsAtomic

namespace Store

theorem isAtomic_materialize (layout : Layout) (edges count : Datum) :
    (materialize layout edges count).IsAtomic :=
  .lift_bind _ fun _ ↦ (StoreM.IsAtomic.transaction _).bind_pure _

theorem isAtomic_generateBy (config : Config) (sampler : Datum → Sampling) (sequence : Datum) :
    (generateBy config sampler sequence).IsAtomic :=
  .lift_bind _ fun _ ↦ .lift_bind _ fun _ ↦ (isAtomic_materialize _ _ _).bind_pure _

end Store

end DegreeGraph
