import DegreeGraph.Proofs.Stepwise
import DegreeGraph.Proofs.Store.Contents
import DegreeGraph.Store.Script

/-!
# What steps do to a store

A step answers or fails, and either way it only makes changes to the contents of the store: the
key property, whether a transaction is open (`Store.Follows`) and the limit (`Store.FollowsWithin`)
are afterwards what they were. Such steps follow one another (`StoreM.Builds`), and a transaction of
them is such a step itself, because a failure puts the contents back.
-/

namespace DegreeGraph

variable {α β : Type}

/-! ## Single steps -/

theorem StoreM.run_lift (answer : Except Fault α) (s : Store) :
    (Store.lift answer).run s = (answer, s) := by
  cases answer with
  | ok a => rfl
  | error fault => rfl

namespace Store

variable {s t u : Store}

theorem find_run (label key property : Datum) (s : Store) :
    (find label key property).run s
      = ((s.nameOf label key property).nodeKey.map s.contents.find?, s) := by
  rw [find, Stepwise.run_bind, Stepwise.run_get]
  simp only [Stepwise.run_bind, StoreM.run_lift]
  cases (s.nameOf label key property).nodeKey with
  | error fault => rfl
  | ok k => rfl

theorem findOrCreate_run (label key property : Datum) (s : Store) :
    (findOrCreate label key property).run s =
      let name := s.nameOf label key property
      match name.nodeKey with
      | .error fault => (.error fault, s)
      | .ok k =>
        match s.contents.find? k with
        | some h => (.ok h, s)
        | none =>
          match propertyName name.property with
          | .error fault => (.error fault, s.withContents s.contents.skipHandle)
          | .ok held => (.ok s.contents.nextHandle,
            s.withContents (s.contents.addNode k (name.attributes held))) := by
  rw [findOrCreate, Stepwise.run_bind, Stepwise.run_get]
  simp only [Stepwise.run_bind, StoreM.run_lift]
  cases hkey : (s.nameOf label key property).nodeKey with
  | error fault => rfl
  | ok k =>
    simp only
    cases hfind : s.contents.find? k with
    | some h => rfl
    | none =>
      simp only
      cases hheld : propertyName (s.nameOf label key property).property with
      | error fault => rfl
      | ok held => rfl

/-- The store after one more attempt to make a link. -/
def attempted (s : Store) : Store := { s with attempts := s.attempts + 1 }

/-- The attempts to make a link have passed the limit. -/
def isGone (s : Store) : Bool := s.limit.any (· < (s.attempts : Int))

theorem countAttempt_run (s : Store) : countAttempt.run s
    = (if s.attempted.isGone then .error .storeGone else .ok (), s.attempted) := by
  rw [countAttempt, Stepwise.run_bind, Stepwise.run_modify]
  change (if s.attempted.isGone then throw .storeGone else pure () : StoreM Unit).run
    s.attempted = _
  cases s.attempted.isGone with
  | false => rfl
  | true => rfl

theorem createEdge_run (a b type : Datum) (s : Store) :
    (createEdge a b type).run s =
      if s.attempted.isGone then (.error .storeGone, s.attempted)
      else match s.handle? a, s.handle? b with
        | some h, some k => (.ok (),
          s.attempted.withContents (s.contents.addLink h k type (shownAs h k a b)))
        | _, _ => (.error (unknownEnds a b), s.attempted) := by
  have hhandle (d : Datum) : s.attempted.handle? d = s.handle? d := rfl
  rw [createEdge, Stepwise.run_bind, countAttempt_run]
  by_cases hgone : s.attempted.isGone
  · rw [if_pos hgone, if_pos hgone]
  · rw [if_neg hgone, if_neg hgone]
    simp only [Stepwise.run_bind, Stepwise.run_get, hhandle]
    cases s.handle? a with
    | none => rfl
    | some h =>
      cases s.handle? b with
      | none => rfl
      | some k => rfl

theorem transaction_run (body : StoreM α) (s : Store) : (transaction body).run s =
    if s.inTransaction then (.error .nestedTransaction, s)
    else ((body.run s.opened).1, (body.run s.opened).2.closed s.contents (body.run s.opened).1) :=
  rfl

/-! ## What a handle given as a datum is -/

theorem hasHandle_of_handle? {d : Datum} {h : ℕ} (hd : s.handle? d = some h) :
    s.contents.hasHandle h := by
  obtain ⟨n, hn, rfl⟩ := Option.map_eq_some_iff.mp hd
  exact Contents.hasHandle_iff.mpr (List.mem_map_of_mem (List.mem_of_find?_eq_some hn))

theorem handle?_int {h : ℕ} (hh : s.contents.hasHandle h) : s.handle? (.int h) = some h := by
  have hsame (n : StoredNode) : Datum.same (.int h) (.int n.handle) = decide (h = n.handle) := by
    rw [Datum.same_int]
    exact decide_eq_decide.mpr Nat.cast_inj
  obtain ⟨n, hn, rfl⟩ := List.mem_map.mp (Contents.hasHandle_iff.mp hh)
  simp only [handle?, hsame]
  cases hfind : s.contents.nodes.find? fun m ↦ decide (n.handle = m.handle) with
  | none => exact absurd (List.find?_eq_none.mp hfind n hn) (by simp)
  | some m =>
    have heq : n.handle = m.handle := by simpa using List.find?_some hfind
    rw [Option.map_some, heq]

/-! ## Steps only build -/

/-- A store has come from another by changes to its contents. -/
structure Follows (s t : Store) : Prop where
  grows : s.contents.Grows t.contents
  keyProperty_eq : t.keyProperty = s.keyProperty
  inTransaction_eq : t.inTransaction = s.inTransaction

theorem Follows.refl (s : Store) : s.Follows s := ⟨.refl _, rfl, rfl⟩

theorem Follows.trans (hst : s.Follows t) (htu : t.Follows u) : s.Follows u :=
  ⟨hst.grows.trans htu.grows, htu.keyProperty_eq.trans hst.keyProperty_eq,
    htu.inTransaction_eq.trans hst.inTransaction_eq⟩

/-- A store has come from another by changes to its contents and attempts to make links. -/
structure FollowsWithin (s t : Store) : Prop extends Follows s t where
  limit_eq : t.limit = s.limit

theorem FollowsWithin.refl (s : Store) : s.FollowsWithin s := ⟨.refl s, rfl⟩

theorem FollowsWithin.trans (hst : s.FollowsWithin t) (htu : t.FollowsWithin u) :
    s.FollowsWithin u :=
  ⟨hst.toFollows.trans htu.toFollows, htu.limit_eq.trans hst.limit_eq⟩

/-- A transaction that fails puts the contents back, and one that ends well keeps what its body
built. -/
theorem Follows.closed (hs : s.inTransaction = false) (h : s.opened.Follows t)
    (answer : Except Fault α) : s.Follows (t.closed s.contents answer) := by
  cases answer with
  | ok a => exact ⟨h.grows, h.keyProperty_eq, hs.symm⟩
  | error fault => exact ⟨.refl _, h.keyProperty_eq, hs.symm⟩

theorem FollowsWithin.closed (hs : s.inTransaction = false) (h : s.opened.FollowsWithin t)
    (answer : Except Fault α) : s.FollowsWithin (t.closed s.contents answer) := by
  refine ⟨h.toFollows.closed hs answer, ?_⟩
  cases answer with
  | ok a => exact h.limit_eq
  | error fault => exact h.limit_eq

/-- Where no contents have changed, at most attempts to make links have been counted. -/
theorem FollowsWithin.eq_of_contents (h : s.FollowsWithin t) (hcontents : t.contents = s.contents) :
    t = { s with attempts := t.attempts } := by
  obtain ⟨⟨-, hproperty, hopen⟩, hlimit⟩ := h
  cases t
  cases hcontents
  cases hproperty
  cases hopen
  cases hlimit
  rfl

theorem follows_withContents {c : Contents} (h : s.contents.Grows c) :
    s.FollowsWithin (s.withContents c) := ⟨⟨h, rfl, rfl⟩, rfl⟩

theorem follows_attempted (s : Store) : s.FollowsWithin s.attempted := ⟨⟨.refl _, rfl, rfl⟩, rfl⟩

end Store

/-- A step makes only changes to the contents of a store, whether it answers or fails. -/
def StoreM.Builds (x : StoreM α) : Prop := ∀ s : Store, s.FollowsWithin (x.run s).2

namespace StoreM.Builds

theorem follows {x : StoreM α} (hx : x.Builds) (s : Store) : s.Follows (x.run s).2 :=
  (hx s).toFollows

theorem pure (a : α) : Builds (Pure.pure a : StoreM α) := fun s ↦ .refl s

theorem lift (answer : Except Fault α) : Builds (Store.lift answer) := by
  intro s
  rw [StoreM.run_lift]
  exact .refl s

theorem bind {x : StoreM α} {f : α → StoreM β} (hx : x.Builds) (hf : ∀ a, (f a).Builds) :
    Builds (x >>= f) := by
  intro s
  have hfirst := hx s
  rw [Stepwise.run_bind]
  rcases hrun : x.run s with ⟨_ | a, t⟩
  · rw [hrun] at hfirst
    exact hfirst
  · rw [hrun] at hfirst
    exact hfirst.trans (hf a t)

theorem transaction {body : StoreM α} (hbody : body.Builds) : (Store.transaction body).Builds := by
  intro s
  rw [Store.transaction_run]
  split
  · exact .refl s
  · rename_i hs
    exact (hbody s.opened).closed (Bool.eq_false_iff.mpr hs) _

end StoreM.Builds

namespace Store

theorem nodeKey_eq_ok_iff {name : NodeName} {k : NodeKey} : name.nodeKey = .ok k ↔
    name.label.key = .ok k.label ∧ name.property.key = .ok k.property
      ∧ name.key.key = .ok k.key := by
  rw [NodeName.nodeKey]
  cases k
  cases name.label.key <;> cases name.property.key <;> cases name.key.key <;>
    simp [bind, Except.bind, pure, Except.pure]

theorem propertyName_eq_ok_iff {property : Datum} {held : String} :
    propertyName property = .ok held ↔ property = .text held ∧ held ∉ reservedProperties := by
  cases property with
  | text name =>
    rw [propertyName, ← List.contains_iff_mem]
    by_cases hreserved : reservedProperties.contains name = true
    · rw [if_pos hreserved]
      refine ⟨nofun, ?_⟩
      rintro ⟨heq, hfree⟩
      exact absurd (Datum.text.inj heq ▸ hreserved) hfree
    · rw [if_neg hreserved]
      refine ⟨?_, ?_⟩
      · intro heq
        rw [← Except.ok.inj heq]
        exact ⟨rfl, hreserved⟩
      · rintro ⟨heq, -⟩
        rw [Datum.text.inj heq]
  | _ => exact ⟨nofun, nofun⟩

/-- A node that is made shows the key that it is made under. -/
theorem describes_attributes {name : NodeName} {k : NodeKey} {held : String}
    (hkey : name.nodeKey = .ok k) (hheld : propertyName name.property = .ok held) :
    k.Describes (name.attributes held) := by
  obtain ⟨hlabel, hproperty, hkey⟩ := nodeKey_eq_ok_iff.mp hkey
  obtain ⟨htext, hfree⟩ := propertyName_eq_ok_iff.mp hheld
  refine ⟨name.label, held, name.key, rfl, ?_, hlabel, ?_, hkey⟩
  · rintro rfl
    exact hfree List.mem_cons_self
  · rw [htext, Datum.key_text] at hproperty
    exact (Except.ok.inj hproperty).symm

theorem builds_find (label key property : Datum) : (find label key property).Builds := by
  intro s
  rw [find_run]
  exact .refl s

theorem builds_findOrCreate (label key property : Datum) :
    (findOrCreate label key property).Builds := by
  intro s
  rw [findOrCreate_run]
  simp only
  split
  · exact .refl s
  · rename_i k hkey
    split
    · exact .refl s
    · rename_i hnew
      split
      · exact follows_withContents (Contents.Change.skipHandle _).grows
      · rename_i held hheld
        exact follows_withContents
          (Contents.Change.addNode hnew (describes_attributes hkey hheld)).grows

theorem builds_createEdge (a b type : Datum) : (createEdge a b type).Builds := by
  intro s
  rw [createEdge_run]
  split
  · exact follows_attempted s
  · split
    · rename_i h k ha hb
      exact (follows_attempted s).trans (follows_withContents (Contents.Change.addLink _ _
        (hasHandle_of_handle? ha) (hasHandle_of_handle? hb)).grows)
    · exact follows_attempted s

theorem builds_placeNode (layout : Layout) (d : Datum) : (placeNode layout d).Builds :=
  (StoreM.Builds.lift _).bind fun _ ↦ builds_findOrCreate _ _ _

theorem builds_placeNodes (layout : Layout) (ds : List Datum) : (placeNodes layout ds).Builds := by
  induction ds with
  | nil => exact .pure ()
  | cons d ds ih => exact (builds_placeNode layout d).bind fun _ ↦ ih

theorem builds_placeEdge (layout : Layout) (ends : Ends) : (placeEdge layout ends).Builds :=
  (builds_placeNode layout _).bind fun _ ↦ (builds_placeNode layout _).bind fun _ ↦
    builds_createEdge _ _ _

theorem builds_placeEdges (layout : Layout) (ends : List Ends) :
    (placeEdges layout ends).Builds := by
  induction ends with
  | nil => exact .pure ()
  | cons e ends ih => exact (builds_placeEdge layout e).bind fun _ ↦ ih

theorem builds_place (layout : Layout) (count : Datum) (ends : List Ends) :
    (place layout count ends).Builds :=
  (StoreM.Builds.lift _).bind fun ds ↦ (builds_placeNodes layout ds).bind fun _ ↦
    builds_placeEdges layout ends

theorem builds_materialize (layout : Layout) (edges count : Datum) :
    (materialize layout edges count).Builds :=
  (StoreM.Builds.lift _).bind fun _ ↦ (builds_place layout count _).transaction.bind fun _ ↦
    .pure _

theorem builds_generateBy (config : Config) (sampler : Datum → Sampling) (sequence : Datum) :
    (generateBy config sampler sequence).Builds :=
  (StoreM.Builds.lift _).bind fun _ ↦ (StoreM.Builds.lift _).bind fun _ ↦
    (builds_materialize _ _ _).bind fun _ ↦ .pure _

theorem builds_generateGraph (registry : Registry) (config : Config) (draws : Draws)
    (sequence : Datum) : (generateGraph registry config draws sequence).Builds :=
  (StoreM.Builds.lift _).bind fun _ ↦ builds_generateBy _ _ _

end Store

end DegreeGraph
