import Mathlib
import DegreeGraph.Store.Contents

/-!
# What a store can hold

The nodes, the index and the next handle of a store are three records of the same thing, and the
numbers of links are a fourth. `Contents.WellFormed` says how they belong together: the index leads
from each key to one node and reaches all of them, a node shows its key and nothing else, no handle
is at or above the next one, links end at nodes, and those between two nodes are numbered in order.

Whatever is done to a store, its contents change in three ways only (`Contents.Change`): a handle is
used up, a node is made under a new key, or two nodes are linked. So an invariant of the contents is
proved once for each of them, and what a store held before is still there afterwards
(`Contents.Grows`).
-/

namespace DegreeGraph

variable {c d : Contents} {k k' : NodeKey} {attributes : Attributes} {h : ℕ}

/-- Attributes show the label and the key that a node is found by, and nothing else. -/
def NodeKey.Describes (k : NodeKey) (attributes : Attributes) : Prop :=
  ∃ (label : Datum) (property : String) (key : Datum),
    attributes = [("label", label), (property, key)] ∧ property ≠ "label"
      ∧ label.key = .ok k.label ∧ k.property = .text property ∧ key.key = .ok k.key

theorem NodeKey.Describes.unique (hk : k.Describes attributes) (hk' : k'.Describes attributes) :
    k = k' := by
  obtain ⟨label, property, key, rfl, -, hlabel, hproperty, hkey⟩ := hk
  obtain ⟨label', property', key', heq, -, hlabel', hproperty', hkey'⟩ := hk'
  simp only [List.cons.injEq, Prod.mk.injEq, true_and, and_true] at heq
  obtain ⟨rfl, rfl, rfl⟩ := heq
  cases k
  cases k'
  simp only [NodeKey.mk.injEq]
  exact ⟨Except.ok.inj (hlabel.symm.trans hlabel'), hproperty.trans hproperty'.symm,
    Except.ok.inj (hkey.symm.trans hkey')⟩

namespace Contents

/-- The nodes, the index, the next handle and the numbers of links belong together. -/
structure WellFormed (c : Contents) : Prop where
  keys_nodup : (c.index.map Prod.fst).Nodup
  handles_perm : (c.index.map Prod.snd).Perm (c.nodes.map StoredNode.handle)
  handles_nodup : (c.nodes.map StoredNode.handle).Nodup
  handle_lt : ∀ n ∈ c.nodes, n.handle < c.nextHandle
  describes : ∀ e ∈ c.index, ∃ n ∈ c.nodes, n.handle = e.2 ∧ e.1.Describes n.attributes
  low_le_high : ∀ l ∈ c.links, l.low ≤ l.high
  ends : ∀ l ∈ c.links, c.hasHandle l.low ∧ c.hasHandle l.high
  numbered : ∀ a b, (c.links.filter (·.joins a b)).map Link.number = List.range (c.countLinks a b)

/-! ## Looking up -/

theorem hasHandle_iff : c.hasHandle h ↔ h ∈ c.nodes.map StoredNode.handle := by
  simp [hasHandle]

theorem find?_addNode (c : Contents) (k k' : NodeKey) (attributes : Attributes) :
    (c.addNode k attributes).find? k' = if k' = k then some c.nextHandle else c.find? k' := by
  rw [find?, addNode, List.lookup_cons]
  by_cases heq : k' = k
  · rw [beq_iff_eq.mpr heq, if_pos heq]
  · rw [beq_false_of_ne heq, if_neg heq, find?]

theorem mem_index_of_find? (hfind : c.find? k = some h) : (k, h) ∈ c.index := by
  obtain ⟨front, back, heq, -⟩ := List.lookup_eq_some_iff.mp hfind
  rw [heq]
  exact List.mem_append_right _ List.mem_cons_self

theorem notMem_keys_of_find? (hfind : c.find? k = none) : k ∉ c.index.map Prod.fst := by
  rintro hmem
  obtain ⟨e, he, rfl⟩ := List.mem_map.mp hmem
  exact bne_iff_ne.mp (List.lookup_eq_none_iff.mp hfind e he) rfl

/-! ## Links -/

end Contents

theorem Link.joins_iff {l : Link} {a b : ℕ} :
    l.joins a b = true ↔ l.low = min a b ∧ l.high = max a b := by
  simp [Link.joins]

namespace Contents

theorem countLinks_congr {a b x y : ℕ} (hmin : min a b = min x y) (hmax : max a b = max x y) :
    c.countLinks a b = c.countLinks x y := by
  simp only [countLinks, Link.joins, hmin, hmax]

/-- A new link is the only one that is added, and it counts between its own ends. -/
theorem countLinks_addLink (c : Contents) (a b : ℕ) (type named : Datum) (x y : ℕ) :
    (c.addLink a b type named).countLinks x y
      = c.countLinks x y + if min a b = min x y ∧ max a b = max x y then 1 else 0 := by
  rw [countLinks, addLink, List.countP_append, List.countP_singleton]
  simp only [Link.joins_iff, countLinks]

namespace WellFormed

theorem find?_eq_some_iff (hc : c.WellFormed) : c.find? k = some h ↔ (k, h) ∈ c.index := by
  refine ⟨mem_index_of_find?, fun hmem ↦ ?_⟩
  cases hfind : c.find? k with
  | none => exact absurd (List.mem_map_of_mem hmem) (notMem_keys_of_find? hfind)
  | some h' =>
    have hsame := List.inj_on_of_nodup_map hc.keys_nodup (mem_index_of_find? hfind) hmem rfl
    rw [(Prod.mk.inj hsame).2]

theorem find?_inj (hc : c.WellFormed) (hk : c.find? k = some h) (hk' : c.find? k' = some h) :
    k = k' := by
  have hnodup := hc.handles_perm.nodup_iff.mpr hc.handles_nodup
  exact (Prod.mk.inj (List.inj_on_of_nodup_map hnodup (mem_index_of_find? hk)
    (mem_index_of_find? hk') rfl)).1

theorem exists_node_of_find? (hc : c.WellFormed) (hk : c.find? k = some h) :
    ∃ n ∈ c.nodes, n.handle = h ∧ k.Describes n.attributes :=
  hc.describes (k, h) (mem_index_of_find? hk)

theorem eq_of_handle_eq (hc : c.WellFormed) {n m : StoredNode} (hn : n ∈ c.nodes)
    (hm : m ∈ c.nodes) (heq : n.handle = m.handle) : n = m :=
  List.inj_on_of_nodup_map hc.handles_nodup hn hm heq

/-- Every node is found under the key that it shows. -/
theorem exists_key (hc : c.WellFormed) {n : StoredNode} (hn : n ∈ c.nodes) :
    ∃ k, c.find? k = some n.handle ∧ k.Describes n.attributes := by
  obtain ⟨e, he, heq⟩ := List.mem_map.mp (hc.handles_perm.mem_iff.mpr (List.mem_map_of_mem hn))
  obtain ⟨m, hm, hhandle, hdescribes⟩ := hc.describes e he
  obtain rfl := hc.eq_of_handle_eq hm hn (hhandle.trans heq)
  exact ⟨e.1, heq ▸ hc.find?_eq_some_iff.mpr he, hdescribes⟩

/-- **A handle is found under a key exactly if it is that of the node that shows the key.** -/
theorem find?_eq_some_iff_describes (hc : c.WellFormed) : c.find? k = some h ↔
    ∃ n ∈ c.nodes, n.handle = h ∧ k.Describes n.attributes := by
  refine ⟨hc.exists_node_of_find?, ?_⟩
  rintro ⟨n, hn, rfl, hdescribes⟩
  obtain ⟨k', hfind, hdescribes'⟩ := hc.exists_key hn
  rwa [hdescribes.unique hdescribes']

theorem hasHandle_of_find? (hc : c.WellFormed) (hk : c.find? k = some h) : c.hasHandle h := by
  obtain ⟨n, hn, rfl, -⟩ := hc.exists_node_of_find? hk
  exact hasHandle_iff.mpr (List.mem_map_of_mem hn)

/-! ## The three changes -/

theorem empty : ({} : Contents).WellFormed := by
  constructor <;> simp [countLinks]

theorem skipHandle (hc : c.WellFormed) : c.skipHandle.WellFormed :=
  { hc with handle_lt := fun n hn ↦ (hc.handle_lt n hn).trans (Nat.lt_succ_self _) }

theorem addNode (hc : c.WellFormed) (hnew : c.find? k = none)
    (hdescribes : k.Describes attributes) : (c.addNode k attributes).WellFormed where
  keys_nodup := List.nodup_cons.mpr ⟨notMem_keys_of_find? hnew, hc.keys_nodup⟩
  handles_perm := by
    rw [Contents.addNode, List.map_cons, List.map_append]
    exact (hc.handles_perm.cons _).trans (List.perm_append_singleton _ _).symm
  handles_nodup := by
    rw [Contents.addNode, List.map_append]
    refine List.nodup_append.mpr ⟨hc.handles_nodup, List.nodup_singleton _, ?_⟩
    -- The next handle is above those of all nodes.
    rintro _ hmem _ hlast rfl
    obtain ⟨n, hn, rfl⟩ := List.mem_map.mp hmem
    exact (hc.handle_lt n hn).ne (List.mem_singleton.mp hlast)
  handle_lt n hn := by
    rcases List.mem_append.mp hn with hn | hn
    · exact (hc.handle_lt n hn).trans (Nat.lt_succ_self _)
    · rw [List.mem_singleton.mp hn]
      exact Nat.lt_succ_self _
  describes e he := by
    rcases List.mem_cons.mp he with rfl | he
    · exact ⟨_, List.mem_append_right _ (List.mem_singleton_self _), rfl, hdescribes⟩
    · obtain ⟨n, hn, h⟩ := hc.describes e he
      exact ⟨n, List.mem_append_left _ hn, h⟩
  low_le_high := hc.low_le_high
  ends l hl := by
    simp only [hasHandle, Contents.addNode, List.any_append, Bool.or_eq_true]
    exact ⟨Or.inl (hc.ends l hl).1, Or.inl (hc.ends l hl).2⟩
  numbered := hc.numbered

theorem addLink (hc : c.WellFormed) {a b : ℕ} (ha : c.hasHandle a) (hb : c.hasHandle b)
    (type named : Datum) : (c.addLink a b type named).WellFormed where
  keys_nodup := hc.keys_nodup
  handles_perm := hc.handles_perm
  handles_nodup := hc.handles_nodup
  handle_lt := hc.handle_lt
  describes := hc.describes
  low_le_high l hl := by
    rcases List.mem_append.mp hl with hl | hl
    · exact hc.low_le_high l hl
    · rw [List.mem_singleton.mp hl]
      exact min_le_max
  ends l hl := by
    rcases List.mem_append.mp hl with hl | hl
    · exact hc.ends l hl
    · rw [List.mem_singleton.mp hl]
      change c.hasHandle (min a b) ∧ c.hasHandle (max a b)
      rcases le_total a b with hab | hab
      · rw [min_eq_left hab, max_eq_right hab]
        exact ⟨ha, hb⟩
      · rw [min_eq_right hab, max_eq_left hab]
        exact ⟨hb, ha⟩
  numbered x y := by
    rw [countLinks_addLink, Contents.addLink, List.filter_append, List.map_append, hc.numbered x y,
      List.filter_singleton, Bool.cond_eq_ite]
    by_cases hjoins : min a b = min x y ∧ max a b = max x y
    · -- The new link has the number of links that there were between its ends.
      rw [if_pos (Link.joins_iff.mpr hjoins), if_pos hjoins, List.range_succ, List.map_singleton,
        countLinks_congr hjoins.1 hjoins.2]
    · rw [if_neg fun h ↦ hjoins (Link.joins_iff.mp h), if_neg hjoins, List.map_nil,
        List.append_nil, Nat.add_zero]

end WellFormed

/-! ## What becomes of the contents -/

/-- One change of what a store holds. -/
inductive Change : Contents → Contents → Prop
  | skipHandle (c : Contents) : Change c c.skipHandle
  | addNode {c : Contents} {k : NodeKey} {attributes : Attributes} : c.find? k = none →
    k.Describes attributes → Change c (c.addNode k attributes)
  | addLink {c : Contents} {a b : ℕ} (type named : Datum) : c.hasHandle a → c.hasHandle b →
    Change c (c.addLink a b type named)

/-- Some contents have become others by changes one after the other. -/
def Grows : Contents → Contents → Prop := Relation.ReflTransGen Change

theorem Grows.refl (c : Contents) : c.Grows c := Relation.ReflTransGen.refl

theorem Grows.trans {e : Contents} (hcd : c.Grows d) (hde : d.Grows e) : c.Grows e :=
  Relation.ReflTransGen.trans hcd hde

theorem Change.grows (hchange : Change c d) : c.Grows d := Relation.ReflTransGen.single hchange

theorem Change.wellFormed (hchange : Change c d) (hc : c.WellFormed) : d.WellFormed := by
  cases hchange with
  | skipHandle => exact hc.skipHandle
  | addNode hnew hdescribes => exact hc.addNode hnew hdescribes
  | addLink type named ha hb => exact hc.addLink ha hb type named

/-- **Contents stay well-formed.** -/
theorem Grows.wellFormed (hgrows : c.Grows d) (hc : c.WellFormed) : d.WellFormed := by
  induction hgrows with
  | refl => exact hc
  | tail _ hchange ih => exact hchange.wellFormed ih

/-- A key that is found is found again, at the same handle. -/
theorem Grows.find?_eq_some (hgrows : c.Grows d) (hfind : c.find? k = some h) :
    d.find? k = some h := by
  induction hgrows with
  | refl => exact hfind
  | tail _ hchange ih =>
    cases hchange with
    | skipHandle => exact ih
    | addNode hnew =>
      rw [find?_addNode, if_neg ?_]
      · exact ih
      · rintro rfl
        exact absurd (hnew.symm.trans ih) (Option.some_ne_none h).symm
    | addLink => exact ih

end Contents

end DegreeGraph
