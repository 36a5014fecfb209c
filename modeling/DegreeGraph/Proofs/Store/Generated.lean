import DegreeGraph.Proofs.Edge.Ends
import DegreeGraph.Proofs.Sampling.Answer
import DegreeGraph.Proofs.Store.Placing

/-!
# A realization in a store

A generated graph is written completely or not at all. What a store has gained from it is told by
the degrees alone (`Store.Gains`): half as many links as they add up to, no two of them between the
same nodes, and as many at the node of each number as its degree says. The store need not be empty
before. Numbers have their own texts and texts their own nodes, so the links of one number are not
those of another, whatever nodes were there already.
-/

namespace DegreeGraph

universe u

variable {layout : Layout} {config : Config} {s t : Store} {degrees : List ℤ}
  {r : Realization} {d : Datum} {h : ℕ} {numbered : List Datum} {ends : List Ends}

/-! ## The nodes of numbers -/

theorem display_int_inj {a b : ℤ} :
    (Datum.int a).display = (Datum.int b).display ↔ a = b := by
  change Int.repr a = Int.repr b ↔ a = b
  exact Int.repr_inj

namespace Layout

theorem Finds.int_eq (hs : s.contents.WellFormed) {a b : ℤ} (ha : layout.Finds s (.int a) h)
    (hb : layout.Finds s (.int b) h) : a = b :=
  display_int_inj.mp (ha.display_eq hs hb)

/-- The numbers that have nodes in a store. -/
def numbersIn (layout : Layout) (s : Store) : Set ℕ := {i | ∃ h, layout.Finds s (.int i) h}

/-- The numbers that have nodes are told apart by the handles of these. -/
theorem exists_handles (layout : Layout) (hs : s.contents.WellFormed) :
    ∃ handle : ℕ → ℕ, (∀ i h : ℕ, layout.Finds s (.int i) h → handle i = h)
      ∧ (layout.numbersIn s).InjOn handle := by
  have hhandle (i : ℕ) : ∃ h, ∀ h', layout.Finds s (.int i) h' → h = h' := by
    by_cases hfound : ∃ h, layout.Finds s (.int i) h
    · obtain ⟨h, hh⟩ := hfound
      exact ⟨h, fun h' hh' ↦ hh.unique hh'⟩
    · exact ⟨0, fun h' hh' ↦ absurd ⟨h', hh'⟩ hfound⟩
  choose handle hhandle using hhandle
  refine ⟨handle, hhandle, ?_⟩
  rintro i ⟨h, hi⟩ j ⟨k, hj⟩ heq
  rw [hhandle i h hi, hhandle j k hj] at heq
  exact Int.natCast_inj.mp (hi.int_eq hs (heq ▸ hj))

end Layout

/-! ## Links between the nodes of numbers -/

/-- The link ends at a handle. -/
def Link.touches (l : Link) (h : ℕ) : Bool := l.low == h || l.high == h

/-- The two ends of a link. -/
def Link.pair (l : Link) : ℕ × ℕ := (l.low, l.high)

/-- The two ends of the link for an edge between numbers that have handles. -/
def pairOf (handle : ℕ → ℕ) (e : Edge) : ℕ × ℕ :=
  (min (handle e.1) (handle e.2), max (handle e.1) (handle e.2))

section Pairs

variable {handle : ℕ → ℕ} {numbers : Set ℕ} {edges : List Edge} {links : List Link}

theorem pairOf_inj (hinj : numbers.InjOn handle) {e e' : Edge} (he : e.1 ∈ numbers ∧ e.2 ∈ numbers)
    (he' : e'.1 ∈ numbers ∧ e'.2 ∈ numbers) (hlt : e.1 < e.2) (hlt' : e'.1 < e'.2)
    (heq : pairOf handle e = pairOf handle e') : e = e' := by
  obtain ⟨hmin, hmax⟩ := Prod.mk.inj heq
  have h₁₁ := hinj.eq_iff he.1 he'.1
  have h₁₂ := hinj.eq_iff he.1 he'.2
  have h₂₁ := hinj.eq_iff he.2 he'.1
  have h₂₂ := hinj.eq_iff he.2 he'.2
  -- The other way round the lesser end of one edge would be the greater one of the other.
  have hsame : e.1 = e'.1 ∧ e.2 = e'.2 := by omega
  exact Prod.ext hsame.1 hsame.2

theorem pairOf_fst_lt_snd (hinj : numbers.InjOn handle) {e : Edge}
    (he : e.1 ∈ numbers ∧ e.2 ∈ numbers) (hlt : e.1 < e.2) :
    (pairOf handle e).1 < (pairOf handle e).2 := by
  have hne : handle e.1 ≠ handle e.2 := fun heq ↦ hlt.ne (hinj he.1 he.2 heq)
  exact min_lt_max.mpr hne

theorem nodup_map_pairOf (hinj : numbers.InjOn handle)
    (hnumbers : ∀ e ∈ edges, e.1 ∈ numbers ∧ e.2 ∈ numbers) (hlt : ∀ e ∈ edges, e.1 < e.2)
    (hnodup : edges.Nodup) : (edges.map (pairOf handle)).Nodup :=
  hnodup.map_on fun e he e' he' ↦
    pairOf_inj hinj (hnumbers e he) (hnumbers e' he') (hlt e he) (hlt e' he')

/-- As many links end at the node of a number as edges end at the number. -/
theorem countP_touches_eq (hinj : numbers.InjOn handle)
    (hnumbers : ∀ e ∈ edges, e.1 ∈ numbers ∧ e.2 ∈ numbers)
    (hpairs : (links.map Link.pair).Perm (edges.map (pairOf handle))) {i : ℕ} (hi : i ∈ numbers) :
    links.countP (·.touches (handle i)) = degreeIn edges i := by
  let meets (p : ℕ × ℕ) : Bool := p.1 == handle i || p.2 == handle i
  have hends (e : Edge) (he : e ∈ edges) :
      meets (pairOf handle e) = true ↔ decide (e.1 = i ∨ e.2 = i) = true := by
    have h₁ := hinj.eq_iff (hnumbers e he).1 hi
    have h₂ := hinj.eq_iff (hnumbers e he).2 hi
    simp only [meets, pairOf, Bool.or_eq_true, beq_iff_eq, decide_eq_true_eq, ← h₁, ← h₂]
    omega
  calc links.countP (·.touches (handle i))
    _ = (links.map Link.pair).countP meets := by
      rw [List.countP_map]
      rfl
    _ = (edges.map (pairOf handle)).countP meets := hpairs.countP_eq meets
    _ = edges.countP (meets ∘ pairOf handle) := List.countP_map
    _ = degreeIn edges i := List.countP_congr hends

end Pairs

/-! ## What a graph adds -/

/-- A number gets a node in any case: those without edges are asked for, or it has edges. -/
def Config.Wants (config : Config) (degrees : List ℤ) (i : Fin degrees.length) : Prop :=
  config.isolatedNodes.holds = true ∨ 0 < degrees.get i

/-- A store has gained nodes and links that make up a graph with given degrees, and what it held
before is still there. -/
structure Store.Gains (config : Config) (degrees : List ℤ) (s t : Store)
    (nodes : List StoredNode) (links : List Link) : Prop extends s.FollowsWithin t where
  nodes_eq : t.contents.nodes = s.contents.nodes ++ nodes
  links_eq : t.contents.links = s.contents.links ++ links
  two_mul_length : 2 * (links.length : ℤ) = degrees.sum
  type_eq : ∀ l ∈ links, l.type = config.relationship
  low_lt_high : ∀ l ∈ links, l.low < l.high
  apart : (links.map Link.pair).Nodup
  found : ∀ i : Fin degrees.length, config.Wants degrees i →
    ∃ h, config.layout.Finds t (.int i) h
  touches_eq : ∀ (i : Fin degrees.length) (h : ℕ), config.layout.Finds t (.int i) h →
    (links.countP (·.touches h) : ℤ) = degrees.get i
  numbered : ∀ n ∈ nodes, ∃ i : Fin degrees.length, config.layout.Finds t (.int i) n.handle
  made_iff : ∀ i : Fin degrees.length, (∃ n ∈ nodes, config.layout.Finds t (.int i) n.handle) ↔
    config.Wants degrees i ∧ config.layout.Lacks s (.int i)

/-- The ends of an edge between numbered nodes. -/
def endsOfEdge (e : Edge) : Ends := (.int e.1, .int e.2)

theorem Realization.sortedEnds_edgeData (hmeets : r.Meets degrees) :
    ∃ ends, sortedEnds r.edgeData = .ok ends ∧ ends.Perm (r.edges.map endsOfEdge) := by
  have hdata : r.edgeData = edgesDatum (r.edges.map fun e ↦ ((e.1 : ℤ), (e.2 : ℤ))) := by
    rw [Realization.edgeData, edgesDatum, List.map_map]
    rfl
  have hends : (r.edges.map fun e ↦ ((e.1 : ℤ), (e.2 : ℤ))).map endsOfInts
      = r.edges.map endsOfEdge := by
    rw [List.map_map]
    refine List.map_congr_left fun e he ↦ endsOfInts_of_le ?_
    exact_mod_cast (hmeets.edges e he).1.le
  refine ⟨_, hdata ▸ sortedEnds_ints _, ?_⟩
  rw [hends]
  exact perm_sortedBy _ _

theorem Realization.Meets.pos_iff (hmeets : r.Meets degrees) (i : Fin degrees.length) :
    0 < degrees.get i ↔ ∃ e ∈ r.edges, e.1 = i ∨ e.2 = i := by
  rw [← hmeets.degree_eq i, Int.natCast_pos, degreeIn, List.countP_pos_iff]
  simp only [decide_eq_true_eq]

theorem mem_numbered_iff (hnumbered : Store.numberedNodes config.layout (.int degrees.length)
      = .ok numbered) :
    d ∈ numbered ↔
      config.isolatedNodes.holds = true ∧ ∃ i : Fin degrees.length, d = .int (i : ℕ) := by
  rw [Store.mem_numberedNodes_iff hnumbered]
  constructor
  · rintro ⟨z, ⟨hisolated, n, hn, hpos, hlt⟩, rfl⟩
    obtain rfl := Option.some.inj hn
    exact ⟨hisolated, ⟨z.toNat, by omega⟩, by rw [Int.toNat_of_nonneg hpos]⟩
  · rintro ⟨hisolated, i, rfl⟩
    exact ⟨i, ⟨hisolated, degrees.length, rfl, by omega, by omega⟩, rfl⟩

theorem mem_endpoints_iff (hmeets : r.Meets degrees)
    (hends : ends.Perm (r.edges.map endsOfEdge)) :
    d ∈ ends.flatMap (fun e ↦ [e.1, e.2]) ↔
      ∃ i : Fin degrees.length, 0 < degrees.get i ∧ d = .int (i : ℕ) := by
  have hedges : d ∈ ends.flatMap (fun e ↦ [e.1, e.2]) ↔
      ∃ e ∈ r.edges, d = .int e.1 ∨ d = .int e.2 := by
    simp only [List.mem_flatMap, hends.mem_iff, List.mem_map, exists_exists_and_eq_and, endsOfEdge,
      List.mem_cons, List.not_mem_nil, or_false]
  rw [hedges]
  constructor
  · rintro ⟨e, he, rfl | rfl⟩
    · obtain ⟨hlt, hn⟩ := hmeets.edges e he
      exact ⟨⟨e.1, hlt.trans hn⟩, (hmeets.pos_iff _).mpr ⟨e, he, Or.inl rfl⟩, rfl⟩
    · exact ⟨⟨e.2, (hmeets.edges e he).2⟩, (hmeets.pos_iff _).mpr ⟨e, he, Or.inr rfl⟩, rfl⟩
  · rintro ⟨i, hpos, rfl⟩
    obtain ⟨e, he, heq | heq⟩ := (hmeets.pos_iff i).mp hpos
    · exact ⟨e, he, Or.inl (by rw [heq])⟩
    · exact ⟨e, he, Or.inr (by rw [heq])⟩

/-- The data that become nodes are the numbers that get one. -/
theorem mem_placedData_iff (hmeets : r.Meets degrees)
    (hnumbered : Store.numberedNodes config.layout (.int degrees.length) = .ok numbered)
    (hends : ends.Perm (r.edges.map endsOfEdge)) :
    d ∈ Store.placedData numbered ends ↔
      ∃ i : Fin degrees.length, config.Wants degrees i ∧ d = .int (i : ℕ) := by
  rw [Store.placedData, List.mem_append, mem_numbered_iff hnumbered,
    mem_endpoints_iff hmeets hends]
  constructor
  · rintro (⟨hisolated, i, rfl⟩ | ⟨i, hpos, rfl⟩)
    · exact ⟨i, Or.inl hisolated, rfl⟩
    · exact ⟨i, Or.inr hpos, rfl⟩
  · rintro ⟨i, hisolated | hpos, rfl⟩
    · exact Or.inl ⟨hisolated, i, rfl⟩
    · exact Or.inr ⟨i, hpos, rfl⟩

theorem exists_perm_of_perm_map {α β : Type} {f : α → β} {ys : List β} {xs : List α}
    (h : ys.Perm (xs.map f)) : ∃ zs : List α, zs.Perm xs ∧ ys = zs.map f := by
  have hmap : List.Forall₂ (fun b a ↦ b = f a) (xs.map f) xs :=
    List.forall₂_map_left_iff.mpr (List.forall₂_same.mpr fun _ _ ↦ rfl)
  obtain ⟨zs, hzs, hperm⟩ := List.perm_comp_forall₂ h hmap
  refine ⟨zs, hperm, ?_⟩
  rw [← List.forall₂_eq_eq_eq]
  exact List.forall₂_map_right_iff.mpr hzs

/-- The links that have been placed are the edges, between the handles of their numbers. -/
theorem perm_map_pair {links : List Link} {handle : ℕ → ℕ}
    (hhandle : ∀ i h : ℕ, layout.Finds t (.int i) h → handle i = h)
    (hjoins : List.Forall₂ (layout.Joins t) links ends)
    (hends : ends.Perm (r.edges.map endsOfEdge)) :
    (links.map Link.pair).Perm (r.edges.map (pairOf handle)) := by
  -- The ends are those of the edges in another order; in that order links and edges agree.
  obtain ⟨edges, hperm, rfl⟩ := exists_perm_of_perm_map hends
  have heq : links.map Link.pair = edges.map (pairOf handle) := by
    rw [← List.forall₂_eq_eq_eq, List.forall₂_map_left_iff, List.forall₂_map_right_iff]
    refine (List.forall₂_map_right_iff.mp hjoins).imp fun l e hjoin ↦ ?_
    obtain ⟨h, k, hh, hk, hlow, hhigh⟩ := hjoin.ends
    rw [Link.pair, pairOf, hhandle _ _ hh, hhandle _ _ hk, hlow, hhigh]
  rw [heq]
  exact hperm.map _

/-- **What has been placed for a realization is a graph with its degrees.** -/
theorem Layout.Places.gains (hs : s.contents.WellFormed) (hmeets : r.Meets degrees)
    (hnumbered : Store.numberedNodes config.layout (.int degrees.length) = .ok numbered)
    (hends : ends.Perm (r.edges.map endsOfEdge))
    (hplaces : config.layout.Places (Store.placedData numbered ends) ends s t) :
    ∃ nodes links, s.Gains config degrees t nodes links := by
  obtain ⟨nodes, hnodes, hmade⟩ := hplaces.nodes
  obtain ⟨links, hlinks, hjoins⟩ := hplaces.links
  have ht := hplaces.grows.wellFormed hs
  obtain ⟨handle, hhandle, hinj⟩ := config.layout.exists_handles ht
  have hplaced (d : Datum) := mem_placedData_iff (d := d) hmeets hnumbered hends
  have hfound (i : Fin degrees.length) (hi : config.Wants degrees i) :
      ∃ h, config.layout.Finds t (.int i) h :=
    hplaces.found _ ((hplaced _).mpr ⟨i, hi, rfl⟩)
  -- Both ends of an edge have a positive degree, so both have nodes.
  have hnumbers (e : Edge) (he : e ∈ r.edges) :
      e.1 ∈ config.layout.numbersIn t ∧ e.2 ∈ config.layout.numbersIn t := by
    obtain ⟨hlt, hn⟩ := hmeets.edges e he
    have hpos (i : Fin degrees.length) (hi : e.1 = i ∨ e.2 = i) : config.Wants degrees i :=
      Or.inr ((hmeets.pos_iff i).mpr ⟨e, he, hi⟩)
    exact ⟨hfound ⟨e.1, hlt.trans hn⟩ (hpos _ (Or.inl rfl)),
      hfound ⟨e.2, hn⟩ (hpos _ (Or.inr rfl))⟩
  have hlt (e : Edge) (he : e ∈ r.edges) : e.1 < e.2 := (hmeets.edges e he).1
  have hpairs := perm_map_pair hhandle hjoins hends
  refine ⟨nodes, links, hplaces.toFollowsWithin, hnodes, hlinks, ?length, ?types, ?ordered, ?apart,
    hfound, ?touching, ?numbered, ?made⟩
  case length =>
    have hlength := hpairs.length_eq
    rw [List.length_map, List.length_map] at hlength
    rw [hlength, hmeets.two_mul_length_edges]
  case types =>
    have htypes := hjoins.imp fun l e hjoin ↦ And.intro hjoin.type_eq hjoin
    exact ((List.forall₂_and_left _ _).mp htypes).1
  case ordered =>
    intro l hl
    obtain ⟨e, he, heq⟩ := List.mem_map.mp (hpairs.mem_iff.mp (List.mem_map_of_mem hl))
    have hends := pairOf_fst_lt_snd hinj (hnumbers e he) (hlt e he)
    rwa [heq] at hends
  case apart => exact hpairs.nodup_iff.mpr (nodup_map_pairOf hinj hnumbers hlt hmeets.nodup)
  case touching =>
    intro i h hh
    rw [← hmeets.degree_eq i, ← hhandle i h hh, countP_touches_eq hinj hnumbers hpairs ⟨h, hh⟩]
  case numbered =>
    intro n hn
    obtain ⟨d, hd, -, hfinds⟩ := hmade n hn
    obtain ⟨i, -, rfl⟩ := (hplaced d).mp hd
    exact ⟨i, hfinds⟩
  case made =>
    intro i
    constructor
    · rintro ⟨n, hn, hfinds⟩
      obtain ⟨d, hd, hlacks, hfinds'⟩ := hmade n hn
      obtain ⟨j, hj, rfl⟩ := (hplaced d).mp hd
      obtain rfl : i = j := Fin.ext (Int.natCast_inj.mp (hfinds.int_eq ht hfinds'))
      exact ⟨hj, hlacks⟩
    · rintro ⟨hwants, hlacks⟩
      obtain ⟨h, hh⟩ := hfound i hwants
      obtain ⟨n, hn, rfl⟩ := hlacks.exists_new hs hplaces.toFollows hnodes hh
      exact ⟨n, hn, hh⟩

/-! ## Generated graphs -/

theorem length_of_readDegrees {ds : List Datum} (h : readDegrees ds = .ok degrees) :
    ds.length = degrees.length := by
  induction ds generalizing degrees with
  | nil =>
    cases h
    rfl
  | cons d ds ih =>
    obtain ⟨z, -, h⟩ := Stepwise.exists_of_bind_eq_ok h
    obtain ⟨zs, hzs, h⟩ := Stepwise.exists_of_bind_eq_ok h
    cases h
    rw [List.length_cons, List.length_cons, ih hzs]

namespace Store

theorem gains_of_generateBy (hs : s.contents.WellFormed) {sampler : Datum → Sampling}
    {sequence : Datum} (hsampler : ∀ (sequence : Datum) (r : Realization),
      (sampler sequence).answer = .ok r →
        ∃ degrees, degreesOf sequence = .ok degrees ∧ r.Meets degrees)
    (hrun : (generateBy config sampler sequence).run s = (.ok r, t)) :
    ∃ degrees nodes links, degreesOf sequence = .ok degrees
      ∧ s.Gains config degrees t nodes links := by
  obtain ⟨parts, hparts, hrun⟩ := StoreM.exists_run_of_lift_bind hrun
  obtain ⟨r', hanswer, hrun⟩ := StoreM.exists_run_of_lift_bind hrun
  obtain ⟨_, t', hmaterialize, hrun⟩ := Stepwise.exists_run_of_bind hrun
  cases hrun
  obtain ⟨degrees, hdegrees, hmeets⟩ := hsampler _ _ hanswer
  have hread : readDegrees parts = .ok degrees := hdegrees
  obtain ⟨ends, numbered, hends, hnumbered, -, hplaces⟩ := places_materialize hs hmaterialize
  obtain ⟨ends', hends', hperm⟩ := Realization.sortedEnds_edgeData hmeets
  obtain rfl := Except.ok.inj (hends.symm.trans hends')
  rw [length_of_readDegrees hread] at hnumbered
  obtain ⟨nodes, links, hgains⟩ := hplaces.gains hs hmeets hnumbered hperm
  refine ⟨degrees, nodes, links, ?_, hgains⟩
  rw [degreesOf, hparts]
  exact hread

/-- A graph has been generated completely, or nothing has happened to the store but attempts to make
links that failed. -/
structure Generated (config : Config) (sequence : Datum) (s : Store)
    (outcome : Except Fault Realization × Store) : Prop where
  failed : ∀ fault, outcome.1 = .error fault →
    outcome.2 = { s with attempts := outcome.2.attempts }
  answered : ∀ r, outcome.1 = .ok r → ∃ degrees nodes links,
    degreesOf sequence = .ok degrees ∧ s.Gains config degrees outcome.2 nodes links

theorem generated_of_generateBy (hs : s.contents.WellFormed) {sampler : Datum → Sampling}
    (sequence : Datum) (hsampler : ∀ (sequence : Datum) (r : Realization),
      (sampler sequence).answer = .ok r →
        ∃ degrees, degreesOf sequence = .ok degrees ∧ r.Meets degrees) :
    s.Generated config sequence ((generateBy config sampler sequence).run s) where
  failed fault hfault := (builds_generateBy config sampler sequence s).eq_of_contents
    (isAtomic_generateBy config sampler sequence s fault hfault)
  answered _ hr := gains_of_generateBy hs hsampler (Prod.ext hr rfl)

/-- **A degree sequence becomes a graph in the store, or nothing.** In every state of a store, under
all settings with one of the tests that are always there, and with draws from anywhere: an answer
means that a graph with the degrees has been added, and a failure that nothing has. -/
theorem Reached.generated (hs : s.Reached) (htest : config.HasBuiltInTest) (sequence : Datum) :
    (∀ (σ : Type u) (source : Source σ) (state : σ), s.Generated config sequence
      ((generateGraphFrom .builtIn config source state sequence).run s))
    ∧ ∀ draws : Draws, s.Generated config sequence
      ((generateGraph .builtIn config draws sequence).run s) := by
  constructor
  · intro σ source state
    exact generated_of_generateBy hs.wellFormed sequence fun _ _ ↦ meets_of_realizeFrom htest
  · intro draws
    rw [generateGraph, Stepwise.run_bind, StoreM.run_lift]
    cases draws.check with
    | error fault => exact ⟨fun _ _ ↦ rfl, nofun⟩
    | ok _ => exact generated_of_generateBy hs.wellFormed sequence fun _ _ ↦ meets_of_realize htest

/-- Two numbers are linked in a store that has a node for one of them. -/
theorem Reached.generated_pair :
    let s : Store :=
      ((Step.act (.findOrCreate (.text "Node") (.text "1") .null) false).run {}).store
    let generated :=
      (generateGraphFrom .builtIn {} (scriptSource [0]) 0 (sequenceDatum [1, 1])).run s
    s.Reached ∧ ({} : Config).HasBuiltInTest ∧ (∃ r, generated.1 = .ok r)
      ∧ ∃ nodes links, s.Gains {} [1, 1] generated.2 nodes links := by
  have hok : ((generateGraphFrom .builtIn {} (scriptSource [0]) 0 (sequenceDatum [1, 1])).run
      ((Step.act (.findOrCreate (.text "Node") (.text "1") .null) false).run {}).store).1.toBool
        = true := by decide +kernel
  intro s generated
  have hs : s.Reached := (Reached.empty (.text "name") none).step _
  have htest : ({} : Config).HasBuiltInTest := Or.inl rfl
  obtain ⟨r, hr⟩ : ∃ r, generated.1 = .ok r := by
    change generated.1.toBool = true at hok
    cases hanswer : generated.1 with
    | error fault =>
      rw [hanswer] at hok
      cases hok
    | ok r => exact ⟨r, rfl⟩
  obtain ⟨degrees, nodes, links, hdegrees, hgains⟩ :=
    ((hs.generated htest (sequenceDatum [1, 1])).1 ℕ (scriptSource [0]) 0).answered r hr
  obtain rfl := Except.ok.inj ((degreesOf_ints [1, 1]).symm.trans hdegrees)
  exact ⟨hs, htest, ⟨r, hr⟩, nodes, links, hgains⟩

end Store

end DegreeGraph
