import DegreeGraph.Proofs.Store.Steps

/-!
# The states of a store

A store begins empty and steps are done to it, one after the other, inside transactions and outside
them (`Store.Reached`). Every step only changes contents in the ways that keep them well-formed,
whether it answers, fails or rolls back, so the index is exact in every state: a node is found by a
label, a property and a key exactly if it is the one that shows them, and it is not made again.
-/

namespace DegreeGraph

variable {s : Store}

/-! ## Runs of steps -/

theorem Action.follows_perform (action : Action) (s : Store) :
    s.Follows (action.perform.run s).2 := by
  cases action with
  | findOrCreate label key property =>
    exact ((Store.builds_findOrCreate label key property).bind fun _ ↦ .pure _).follows s
  | find label key property =>
    exact ((Store.builds_find label key property).bind fun _ ↦ .pure _).follows s
  | createEdge a b type =>
    exact ((Store.builds_createEdge a b type).bind fun _ ↦ .pure _).follows s
  | counts => exact .refl s
  | view => exact .refl s
  | setLimit limit => exact ⟨.refl _, rfl, rfl⟩
  | fail fault => exact .refl s
  | materialize edges given count =>
    exact ((StoreM.Builds.lift _).bind fun _ ↦
      (Store.builds_materialize _ _ _).bind fun _ ↦ .pure _).follows s
  | generate sequence given registry draws =>
    exact ((StoreM.Builds.lift _).bind fun _ ↦
      (Store.builds_generateGraph _ _ _ _).bind fun _ ↦ .pure _).follows s

mutual

theorem Step.follows_run : ∀ (step : Step) (s : Store), s.Follows (step.run s).store
  | .act action _, s => action.follows_perform s
  | .transaction body _, s => by
    rw [Step.run]
    split
    · exact .refl s
    · rename_i hs
      exact (follows_runBody body s.opened).closed (Bool.eq_false_iff.mpr hs) _

theorem follows_runBody : ∀ (body : List Step) (s : Store), s.Follows (runBody body s).store
  | [], s => .refl s
  | step :: rest, s => by
    rw [runBody]
    split
    · exact step.follows_run s
    · exact (step.follows_run s).trans (follows_runBody rest _)

end

/-! ## Reached states -/

/-- The states of a store that begins empty. -/
inductive Store.Reached : Store → Prop
  | empty (keyProperty : Datum) (limit : Option Int) :
    Reached { keyProperty := keyProperty, limit := limit }
  | step {s : Store} (step : Step) : Reached s → Reached (step.run s).store
  | opened {s : Store} : Reached s → s.inTransaction = false → Reached s.opened

theorem Store.Reached.wellFormed (hs : s.Reached) : s.contents.WellFormed := by
  induction hs with
  | empty => exact .empty
  | step step _ ih => exact (step.follows_run _).grows.wellFormed ih
  | opened _ _ ih => exact ih

/-! ## What is found -/

namespace Store

variable {label key property : Datum} {h : ℕ}

/-- A node shows the label and the key that are asked for, under the property that is asked for or
else that of the store. -/
def Shows (s : Store) (label key property : Datum) (n : StoredNode) : Prop :=
  ∃ k, (s.nameOf label key property).nodeKey = .ok k ∧ k.Describes n.attributes

theorem find_run_eq_ok_iff {found : Option ℕ} :
    (find label key property).run s = (.ok found, s) ↔
      ∃ k, (s.nameOf label key property).nodeKey = .ok k ∧ s.contents.find? k = found := by
  rw [find_run]
  cases (s.nameOf label key property).nodeKey with
  | error fault =>
    constructor
    · nofun
    · rintro ⟨k, hkey, -⟩
      cases hkey
  | ok k =>
    constructor
    · intro hrun
      exact ⟨k, rfl, Except.ok.inj (Prod.mk.inj hrun).1⟩
    · rintro ⟨_, hkey, hfound⟩
      rw [← Except.ok.inj hkey] at hfound
      rw [Except.map, hfound]

theorem findOrCreate_run_of_find (hfind : (find label key property).run s = (.ok (some h), s)) :
    (findOrCreate label key property).run s = (.ok h, s) := by
  obtain ⟨k, hkey, hfound⟩ := find_run_eq_ok_iff.mp hfind
  simp only [findOrCreate_run, hkey, hfound]

theorem find_run_eq_some_iff_shows (hs : s.contents.WellFormed) :
    (find label key property).run s = (.ok (some h), s) ↔
      ∃ n ∈ s.contents.nodes, n.handle = h ∧ s.Shows label key property n := by
  rw [find_run_eq_ok_iff]
  constructor
  · rintro ⟨k, hkey, hfound⟩
    obtain ⟨n, hn, heq, hdescribes⟩ := hs.exists_node_of_find? hfound
    exact ⟨n, hn, heq, k, hkey, hdescribes⟩
  · rintro ⟨n, hn, heq, k, hkey, hdescribes⟩
    exact ⟨k, hkey, hs.find?_eq_some_iff_describes.mpr ⟨n, hn, heq, hdescribes⟩⟩

/-- Two nodes do not show the same. -/
theorem Shows.unique (hs : s.contents.WellFormed) {m n : StoredNode} (hm : m ∈ s.contents.nodes)
    (hn : n ∈ s.contents.nodes) (hmshows : s.Shows label key property m)
    (hnshows : s.Shows label key property n) : m = n := by
  have hmfind := (find_run_eq_some_iff_shows hs).mpr ⟨m, hm, rfl, hmshows⟩
  have hnfind := (find_run_eq_some_iff_shows hs).mpr ⟨n, hn, rfl, hnshows⟩
  have hsame := (Prod.mk.inj (hmfind.symm.trans hnfind)).1
  exact hs.eq_of_handle_eq hm hn (Option.some.inj (Except.ok.inj hsame))

/-- **In every state of a store its records belong together**, whatever was done to it. A node is
found exactly if it is the only one that shows what is asked for, and what is found is not made
again. -/
theorem Reached.records_agree (hs : s.Reached) :
    s.contents.WellFormed ∧ ∀ (label key property : Datum) (h : ℕ),
      ((find label key property).run s = (.ok (some h), s) ↔
        ∃ n ∈ s.contents.nodes, n.handle = h ∧ s.Shows label key property n
          ∧ ∀ m ∈ s.contents.nodes, s.Shows label key property m → m = n)
      ∧ ((find label key property).run s = (.ok (some h), s) →
        (findOrCreate label key property).run s = (.ok h, s)) := by
  refine ⟨hs.wellFormed, fun label key property h ↦ ⟨?_, findOrCreate_run_of_find⟩⟩
  rw [find_run_eq_some_iff_shows hs.wellFormed]
  constructor
  · rintro ⟨n, hn, heq, hshows⟩
    exact ⟨n, hn, heq, hshows, fun m hm hmshows ↦ hmshows.unique hs.wellFormed hm hn hshows⟩
  · rintro ⟨n, hn, heq, hshows, -⟩
    exact ⟨n, hn, heq, hshows⟩

/-- Two people are linked, once before a transaction that fails, twice in it and once afterwards. -/
def linkedTwice : Store :=
  let person (name : String) : Step := .act (.findOrCreate (.text "Person") (.text name) .null) false
  let link (type : String) : Step := .act (.createEdge (.int 1) (.int 0) (.text type)) false
  let failed : Step := .transaction
    [person "Cid", link "knows", link "likes", .act (.fail .storeGone) false] true
  (runScript [person "Ann", person "Bob", link "knows", failed, link "likes", person "Dan"] {}).store

theorem reached_linkedTwice : linkedTwice.Reached :=
  ((((((Reached.empty (.text "name") none).step _).step _).step _).step _).step _).step _

/-- The node that a failed transaction has made is gone and its handle is free again, and so are the
numbers of its links. -/
theorem records_agree_after_rollback :
    linkedTwice.Reached ∧ linkedTwice.contents.WellFormed
      ∧ linkedTwice.contents.nodes.map StoredNode.handle = [0, 1, 2]
      ∧ linkedTwice.contents.links.map (fun l ↦ (l.low, l.high, l.number, l.type.toText?))
        = [(0, 1, 0, some "knows"), (0, 1, 1, some "likes")]
      ∧ (findOrCreate (.text "Person") (.text "Dan") .null).run linkedTwice = (.ok 2, linkedTwice) := by
  have hagree := reached_linkedTwice.records_agree
  have hfound : linkedTwice.contents.find? ⟨.text "Person", .text "name", .text "Dan"⟩ = some 2 := by
    decide +kernel
  exact ⟨reached_linkedTwice, hagree.1, by decide +kernel, by decide +kernel,
    (hagree.2 _ _ _ 2).2 (find_run_eq_ok_iff.mpr ⟨_, rfl, hfound⟩)⟩

end Store

end DegreeGraph
