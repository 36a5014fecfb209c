/-!
# Sorting by merging

Degrees are scanned in descending order, edge lists are written in ascending order, and names are
listed in alphabetical order. One sort serves them all: both halves of a list are sorted and then merged. It
is structural, so it also runs inside the kernel, and it is stable: entries that are level keep their order.

`perm_sortedBy` says that nothing is lost or added, and `pairwise_sortedBy` that the answer is in
order whenever the comparison is total and transitive. Where no two entries are level, the order of the
entries before the sort makes no difference (`sortedBy_eq_of_perm`).
-/

namespace DegreeGraph

universe u v

variable {α : Type u} {β : Type v}

/-! ## Merging -/

/-- Places `x` in front of the first entry that it is level with or precedes, and what is left of its list by
`rest` behind it. -/
def mergeEntry (le : α → α → Bool) (x : α) (rest : List α → List α) : List α → List α
  | [] => x :: rest []
  | y :: ys => if le x y then x :: rest (y :: ys) else y :: mergeEntry le x rest ys

/-- The entries of two lists, each time the first of one of them. -/
def merged (le : α → α → Bool) : List α → List α → List α
  | [], ys => ys
  | x :: xs, ys => mergeEntry le x (merged le xs) ys

theorem perm_mergeEntry (le : α → α → Bool) (x : α) {xs : List α} {rest : List α → List α}
    (h : ∀ ys, (rest ys).Perm (xs ++ ys)) (ys : List α) :
    (mergeEntry le x rest ys).Perm (x :: xs ++ ys) := by
  induction ys with
  | nil => exact (h []).cons x
  | cons y ys ih =>
    rw [mergeEntry]
    split
    · exact (h (y :: ys)).cons x
    · exact (ih.cons y).trans List.perm_middle.symm

theorem perm_merged (le : α → α → Bool) (xs ys : List α) : (merged le xs ys).Perm (xs ++ ys) := by
  induction xs generalizing ys with
  | nil => exact List.Perm.refl _
  | cons x xs ih => exact perm_mergeEntry le x ih ys

theorem pairwise_mergeEntry {le : α → α → Bool} (total : ∀ a b, le a b || le b a)
    (trans : ∀ a b c, le a b → le b c → le a c) {x : α} {xs : List α} {rest : List α → List α}
    (perm : ∀ ys, (rest ys).Perm (xs ++ ys))
    (sorted : ∀ ys, ys.Pairwise (le · ·) → (rest ys).Pairwise (le · ·))
    (hx : ∀ z ∈ xs, le x z) {ys : List α} (hys : ys.Pairwise (le · ·)) :
    (mergeEntry le x rest ys).Pairwise (le · ·) := by
  induction ys with
  | nil =>
    refine List.pairwise_cons.2 ⟨fun z hz ↦ hx z ?_, sorted [] List.Pairwise.nil⟩
    simpa using (perm []).mem_iff.1 hz
  | cons y ys ih =>
    have hy := List.pairwise_cons.1 hys
    rw [mergeEntry]
    split
    · rename_i hxy
      refine List.pairwise_cons.2 ⟨fun z hz ↦ ?_, sorted _ hys⟩
      rcases List.mem_append.1 ((perm _).mem_iff.1 hz) with hz | hz
      · exact hx z hz
      · rcases List.mem_cons.1 hz with rfl | hz
        · exact hxy
        · exact trans _ _ _ hxy (hy.1 z hz)
    · rename_i hxy
      have hyx : le y x := by simpa [hxy] using total x y
      refine List.pairwise_cons.2 ⟨fun z hz ↦ ?_, ih hy.2⟩
      have hz := (perm_mergeEntry le x perm ys).mem_iff.1 hz
      rcases List.mem_append.1 hz with hz | hz
      · rcases List.mem_cons.1 hz with rfl | hz
        · exact hyx
        · exact trans _ _ _ hyx (hx z hz)
      · exact hy.1 z hz

theorem pairwise_merged {le : α → α → Bool} (total : ∀ a b, le a b || le b a)
    (trans : ∀ a b c, le a b → le b c → le a c) {xs : List α} (hxs : xs.Pairwise (le · ·))
    {ys : List α} (hys : ys.Pairwise (le · ·)) : (merged le xs ys).Pairwise (le · ·) := by
  induction xs generalizing ys with
  | nil => exact hys
  | cons x xs ih =>
    have hx := List.pairwise_cons.1 hxs
    exact pairwise_mergeEntry total trans (perm_merged le xs) (fun _ h ↦ ih hx.2 h) hx.1 hys

/-! ## Sorting -/

/-- A list sorted by halving it, `depth` times at most. -/
def sortedWithin (le : α → α → Bool) : (depth : Nat) → List α → List α
  | 0, xs => xs
  | _ + 1, [] => []
  | _ + 1, [x] => [x]
  | depth + 1, xs =>
    let half := xs.length / 2
    merged le (sortedWithin le depth (xs.take half)) (sortedWithin le depth (xs.drop half))

/-- The entries of a list in the order of `le`. -/
def sortedBy (le : α → α → Bool) (xs : List α) : List α := sortedWithin le xs.length xs

theorem perm_sortedWithin (le : α → α → Bool) (depth : Nat) (xs : List α) :
    (sortedWithin le depth xs).Perm xs := by
  fun_induction sortedWithin le depth xs with
  | case1 | case2 | case3 => exact List.Perm.refl _
  | case4 depth xs _ _ half front back =>
    have h := (perm_merged le _ _).trans (front.append back)
    rwa [List.take_append_drop] at h

theorem pairwise_sortedWithin {le : α → α → Bool} (total : ∀ a b, le a b || le b a)
    (trans : ∀ a b c, le a b → le b c → le a c) {depth : Nat} {xs : List α} (h : xs.length ≤ depth) :
    (sortedWithin le depth xs).Pairwise (le · ·) := by
  fun_induction sortedWithin le depth xs with
  | case1 xs => simp [List.length_eq_zero_iff.1 (Nat.le_zero.1 h)]
  | case2 => exact List.Pairwise.nil
  | case3 => simp
  | case4 depth xs hnil hone half front back =>
    have hlong : 2 ≤ xs.length := by
      match xs, hnil, hone with
      | [], hnil, _ => exact absurd rfl hnil
      | [x], _, hone => exact absurd rfl (hone x)
      | _ :: _ :: _, _, _ => simp
    refine pairwise_merged total trans (front ?_) (back ?_)
    · simp only [List.length_take, half]; omega
    · simp only [List.length_drop, half]; omega

theorem perm_sortedBy (le : α → α → Bool) (xs : List α) : (sortedBy le xs).Perm xs :=
  perm_sortedWithin le xs.length xs

@[simp] theorem length_sortedBy (le : α → α → Bool) (xs : List α) :
    (sortedBy le xs).length = xs.length :=
  (perm_sortedBy le xs).length_eq

@[simp] theorem mem_sortedBy (le : α → α → Bool) (xs : List α) (a : α) :
    a ∈ sortedBy le xs ↔ a ∈ xs :=
  (perm_sortedBy le xs).mem_iff

theorem pairwise_sortedBy {le : α → α → Bool} (total : ∀ a b, le a b || le b a)
    (trans : ∀ a b c, le a b → le b c → le a c) (xs : List α) :
    (sortedBy le xs).Pairwise (le · ·) :=
  pairwise_sortedWithin total trans (Nat.le_refl _)

/-! ## One order, one answer -/

section Order

variable {le : α → α → Bool} (total : ∀ a b, le a b || le b a)
  (trans : ∀ a b c, le a b → le b c → le a c) (antisymm : ∀ a b, le a b → le b a → a = b)
include total trans antisymm

/-- A list in order is what its permutations are sorted to. -/
theorem eq_sortedBy {xs ys : List α} (hperm : ys.Perm xs) (hsorted : ys.Pairwise (le · ·)) :
    ys = sortedBy le xs :=
  List.Perm.eq_of_pairwise (fun a b _ _ ↦ antisymm a b) hsorted (pairwise_sortedBy total trans xs)
    (hperm.trans (perm_sortedBy le xs).symm)

theorem sortedBy_eq_of_perm {xs ys : List α} (hperm : xs.Perm ys) :
    sortedBy le xs = sortedBy le ys :=
  eq_sortedBy total trans antisymm ((perm_sortedBy le xs).trans hperm)
    (pairwise_sortedBy total trans xs)

end Order

/-! ## Other names for the entries -/

section Map

variable {f : α → β} {le : α → α → Bool} {le' : β → β → Bool}
  (hle : ∀ a b, le' (f a) (f b) = le a b)
include hle

theorem mergeEntry_map (x : α) {rest : List α → List α} {rest' : List β → List β}
    (hrest : ∀ ys, rest' (ys.map f) = (rest ys).map f) (ys : List α) :
    mergeEntry le' (f x) rest' (ys.map f) = (mergeEntry le x rest ys).map f := by
  induction ys with
  | nil => exact congrArg (f x :: ·) (hrest [])
  | cons y ys ih =>
    rw [List.map_cons, mergeEntry, mergeEntry, hle]
    split
    · exact congrArg (f x :: ·) (hrest (y :: ys))
    · exact congrArg (f y :: ·) ih

theorem merged_map (xs ys : List α) :
    merged le' (xs.map f) (ys.map f) = (merged le xs ys).map f := by
  induction xs generalizing ys with
  | nil => rfl
  | cons x xs ih => exact mergeEntry_map hle x ih ys

theorem sortedWithin_map (depth : Nat) (xs : List α) :
    sortedWithin le' depth (xs.map f) = (sortedWithin le depth xs).map f := by
  fun_induction sortedWithin le depth xs with
  | case1 | case2 | case3 => rfl
  | case4 depth xs hnil hone half front back =>
    rw [sortedWithin, List.length_map, ← List.map_take, ← List.map_drop, front, back]
    · exact merged_map hle _ _
    · simpa using hnil
    · intro x hx
      obtain ⟨y, hy, -⟩ := List.map_eq_singleton_iff.1 hx
      exact hone y hy

/-- A list whose entries are renamed is sorted as before, if the comparison goes by the old names. -/
theorem sortedBy_map (xs : List α) : sortedBy le' (xs.map f) = (sortedBy le xs).map f := by
  rw [sortedBy, sortedBy, List.length_map, sortedWithin_map hle]

end Map

end DegreeGraph
