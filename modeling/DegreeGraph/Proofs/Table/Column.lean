import Mathlib
import DegreeGraph.Proofs.Stepwise
import DegreeGraph.Table.Column

/-!
# The entries of a column stand where its cells do

All cells of a column decide together what kind of column it is, and a long column is cut into
pieces that decide apart. Whatever they decide, there is one entry for each cell, in the same order,
and it is what can be read in this cell (`Column.forall₂_ofCells`). So no entry moves up or down
when its column is read as something else, and of a cell without a value nothing but its own text is
read (`Column.Entry.IsReadIn.eq_of_isMissing`).
-/

namespace DegreeGraph.Column

open DegreeGraph.Number

variable {cell : List Char} {cells : List (List Char)} {e : Entry} {entries : List Entry} {z : ℤ}

/-! ## What is read in a cell -/

namespace Entry

/-- An entry is what can be read in a cell. A cell without a value is no number, but it may be taken
for a text. -/
inductive IsReadIn (cell : List Char) : Entry → Prop
  | missing : Cell.isMissing cell = true → IsReadIn cell .missing
  | whole {z : ℤ} {tail : List Char} : Cell.isMissing cell = false →
    Cell.leadingWhole? cell = some (z, tail) → tail.all Cell.isPad = true → IsReadIn cell (.whole z)
  | large {z : ℤ} : Cell.isMissing cell = false → Cell.largeWhole? cell = some z →
    IsReadIn cell (.whole z)
  | decimal {x : Float} : Cell.isMissing cell = false → Cell.decimal? cell = some x →
    IsReadIn cell (.decimal x)
  | truth {b : Bool} : Cell.isMissing cell = false → Cell.truth? cell = some b →
    IsReadIn cell (.truth b)
  | text : IsReadIn cell (.text cell)
  | inDouble {e : Entry} : IsReadIn cell e → IsReadIn cell e.inDouble

theorem IsReadIn.eq_of_isMissing (h : e.IsReadIn cell) (hmissing : Cell.isMissing cell = true) :
    e = .missing ∨ e = .text cell := by
  induction h with
  | missing => exact Or.inl rfl
  | text => exact Or.inr rfl
  | inDouble _ ih =>
    rcases ih with rfl | rfl
    · exact Or.inl rfl
    · exact Or.inr rfl
  | whole hvalue => exact absurd hmissing (Bool.eq_false_iff.mp hvalue)
  | large hvalue => exact absurd hmissing (Bool.eq_false_iff.mp hvalue)
  | decimal hvalue => exact absurd hmissing (Bool.eq_false_iff.mp hvalue)
  | truth hvalue => exact absurd hmissing (Bool.eq_false_iff.mp hvalue)

end Entry

open Entry

/-! ## Words -/

/-- The words of cells, with nothing for those without a value. -/
def wordsOf (cells : List (List Char)) : Words :=
  cells.map fun c ↦ if Cell.isMissing c then none else some c

theorem wordsOf_cons_of_isMissing (cells : List (List Char)) (h : Cell.isMissing cell = true) :
    wordsOf (cell :: cells) = none :: wordsOf cells :=
  congrArg (· :: _) (if_pos h)

theorem wordsOf_cons_of_not_isMissing (cells : List (List Char))
    (h : Cell.isMissing cell = false) : wordsOf (cell :: cells) = some cell :: wordsOf cells :=
  congrArg (· :: _) (if_neg (Bool.eq_false_iff.mp h))

theorem forall₂_entriesOf? {read? : List Char → Option Entry}
    (hread : ∀ c e, Cell.isMissing c = false → read? c = some e → e.IsReadIn c)
    (h : entriesOf? read? (wordsOf cells) = some entries) :
    List.Forall₂ (fun c e ↦ e.IsReadIn c) cells entries := by
  induction cells generalizing entries with
  | nil =>
    cases h
    exact .nil
  | cons c cells ih =>
    cases hmissing : Cell.isMissing c with
    | true =>
      rw [wordsOf_cons_of_isMissing cells hmissing, entriesOf?] at h
      obtain ⟨rest, hrest, rfl⟩ := Option.map_eq_some_iff.mp h
      exact .cons (.missing hmissing) (ih hrest)
    | false =>
      rw [wordsOf_cons_of_not_isMissing cells hmissing, entriesOf?] at h
      split at h
      · rename_i e rest he hrest
        cases h
        exact .cons (hread c e hmissing he) (ih hrest)
      · cases h

/-! ## Whole numbers -/

theorem exists_of_readWhole {within : ℤ → Bool} (h : readWhole within cell = .all z) :
    ∃ tail, Cell.leadingWhole? cell = some (z, tail) ∧ tail.all Cell.isPad = true
      ∧ within z = true := by
  rw [readWhole] at h
  split at h
  · cases h
  · rename_i y tail hleading
    split at h
    · rename_i hwithin
      split at h
      · rename_i hpads
        cases h
        exact ⟨tail, hleading, hpads, hwithin⟩
      · cases h
    · split at h
      · cases h
      · cases h

theorem exists_of_readWhole_tooLarge {within : ℤ → Bool} (h : readWhole within cell = .tooLarge) :
    ∃ z tail, Cell.leadingWhole? cell = some (z, tail) ∧ within z = false := by
  rw [readWhole] at h
  split at h
  · cases h
  · rename_i y tail hleading
    split at h
    · split at h
      · cases h
      · cases h
    · rename_i hwithin
      exact ⟨y, tail, hleading, Bool.eq_false_iff.mpr hwithin⟩

theorem exists_of_readInt64_none {words : Words} (h : readInt64 (none :: words) = .all entries) :
    ∃ rest, readInt64 words = .all rest ∧ entries = .missing :: rest := by
  rw [readInt64] at h
  split at h
  · rename_i rest hrest
    cases h
    exact ⟨rest, hrest, rfl⟩
  · rename_i hne
    exact absurd h (hne entries)

theorem exists_of_readInt64_some {words : Words}
    (h : readInt64 (some cell :: words) = .all entries) :
    ∃ z rest, readWhole isInt64 cell = .all z ∧ readInt64 words = .all rest
      ∧ entries = .whole z :: rest := by
  rw [readInt64] at h
  split at h
  · cases h
  · cases h
  · rename_i z hz
    split at h
    · rename_i rest hrest
      cases h
      exact ⟨z, rest, hz, hrest, rfl⟩
    · rename_i hne
      exact absurd h (hne entries)

theorem forall₂_readInt64 (h : readInt64 (wordsOf cells) = .all entries) :
    List.Forall₂ (fun c e ↦ e.IsReadIn c) cells entries := by
  induction cells generalizing entries with
  | nil =>
    cases h
    exact .nil
  | cons c cells ih =>
    cases hmissing : Cell.isMissing c with
    | true =>
      rw [wordsOf_cons_of_isMissing cells hmissing] at h
      obtain ⟨rest, hrest, rfl⟩ := exists_of_readInt64_none h
      exact .cons (.missing hmissing) (ih hrest)
    | false =>
      rw [wordsOf_cons_of_not_isMissing cells hmissing] at h
      obtain ⟨z, rest, hz, hrest, rfl⟩ := exists_of_readInt64_some h
      obtain ⟨tail, hleading, hpads, -⟩ := exists_of_readWhole hz
      exact .cons (.whole hmissing hleading hpads) (ih hrest)

/-! Without a sign, entries may be left out, but only of a column that is not used then. -/

theorem exists_of_readUInt64_none {words : Words} {u : Unsigned}
    (h : readUInt64 (none :: words) = .all u) :
    ∃ v, readUInt64 words = .all v ∧ u = { v with missing := true } := by
  rw [readUInt64] at h
  split at h
  · rename_i v hv
    cases h
    exact ⟨v, hv, rfl⟩
  · rename_i hne
    exact absurd h (hne u)

theorem exists_of_readUInt64_some {words : Words} {u : Unsigned}
    (h : readUInt64 (some cell :: words) = .all u) :
    ∃ v, readUInt64 words = .all v ∧ (u = { v with minus := true }
      ∨ ∃ z, readWhole isUInt64 cell = .all z ∧ u = { v with
        entries := .whole z :: v.entries, great := v.great || !isInt64 z }) := by
  rw [readUInt64] at h
  split at h
  · split at h
    · rename_i v hv
      cases h
      exact ⟨v, hv, Or.inl rfl⟩
    · rename_i hne
      exact absurd h (hne u)
  · split at h
    · cases h
    · cases h
    · rename_i z hz
      split at h
      · rename_i v hv
        cases h
        exact ⟨v, hv, Or.inr ⟨z, hz, rfl⟩⟩
      · rename_i hne
        exact absurd h (hne u)

theorem forall₂_readUInt64 {u : Unsigned} (h : readUInt64 (wordsOf cells) = .all u)
    (hminus : u.minus = false) (hmissing : u.missing = false) :
    List.Forall₂ (fun c e ↦ e.IsReadIn c) cells u.entries := by
  induction cells generalizing u with
  | nil =>
    cases h
    exact .nil
  | cons c cells ih =>
    cases hvalue : Cell.isMissing c with
    | true =>
      rw [wordsOf_cons_of_isMissing cells hvalue] at h
      obtain ⟨v, -, rfl⟩ := exists_of_readUInt64_none h
      cases hmissing
    | false =>
      rw [wordsOf_cons_of_not_isMissing cells hvalue] at h
      obtain ⟨v, hv, rfl | ⟨z, hz, rfl⟩⟩ := exists_of_readUInt64_some h
      · cases hminus
      · obtain ⟨tail, hleading, hpads, -⟩ := exists_of_readWhole hz
        exact .cons (.whole hvalue hleading hpads) (ih hv hminus hmissing)

/-- A word that was too large for a sign is too large for 64 bits with one, or begins with one. -/
theorem great_or_minus {words : Words} {u : Unsigned} (hlarge : readInt64 words = .tooLarge)
    (h : readUInt64 words = .all u) : u.great = true ∨ u.minus = true := by
  induction words generalizing u with
  | nil => cases hlarge
  | cons word words ih =>
    cases word with
    | none =>
      obtain ⟨v, hv, rfl⟩ := exists_of_readUInt64_none h
      have hrest : readInt64 words = .tooLarge := by
        rw [readInt64] at hlarge
        split at hlarge
        · cases hlarge
        · exact hlarge
      exact ih (u := v) hrest hv
    | some c =>
      obtain ⟨v, hv, rfl | ⟨z, hz, rfl⟩⟩ := exists_of_readUInt64_some h
      · exact Or.inr rfl
      · rw [readInt64] at hlarge
        split at hlarge
        · rename_i htoo
          obtain ⟨y, tail, hleading, hbound⟩ := exists_of_readWhole_tooLarge htoo
          obtain ⟨tail', hleading', -, -⟩ := exists_of_readWhole hz
          obtain ⟨rfl, -⟩ := Prod.mk.inj (Option.some.inj (hleading.symm.trans hleading'))
          exact Or.inl (by simp [hbound])
        · cases hlarge
        · split at hlarge
          · cases hlarge
          · rcases ih hlarge hv with hgreat | hminus
            · exact Or.inl (by simp [hgreat])
            · exact Or.inr hminus

/-! ## Pieces -/

theorem forall₂_texts (cells : List (List Char)) :
    List.Forall₂ (fun c e ↦ e.IsReadIn c) cells (texts cells).entries :=
  List.forall₂_map_right_iff.mpr (List.forall₂_same.mpr fun _ _ ↦ .text)

theorem forall₂_inDouble (h : List.Forall₂ (fun c e ↦ e.IsReadIn c) cells entries) :
    List.Forall₂ (fun c e ↦ e.IsReadIn c) cells (entries.map Entry.inDouble) :=
  List.forall₂_map_right_iff.mpr (h.imp fun _ _ ↦ .inDouble)

theorem forall₂_ofOthers (cells : List (List Char)) :
    List.Forall₂ (fun c e ↦ e.IsReadIn c) cells (ofOthers cells (wordsOf cells)).entries := by
  rw [ofOthers]
  split
  · rename_i entries h
    refine forall₂_entriesOf? (fun c e hvalue he ↦ ?_) h
    obtain ⟨x, hx, rfl⟩ := Option.map_eq_some_iff.mp he
    exact .decimal hvalue hx
  · split
    · rename_i entries h
      refine forall₂_entriesOf? (fun c e hvalue he ↦ ?_) h
      obtain ⟨b, hb, rfl⟩ := Option.map_eq_some_iff.mp he
      exact .truth hvalue hb
    · -- Only the cells without a value are no texts.
      rw [wordsOf, List.zipWith_map_right, List.zipWith_self, List.forall₂_map_right_iff]
      refine List.forall₂_same.mpr fun c _ ↦ ?_
      cases hvalue : Cell.isMissing c with
      | true => exact .missing hvalue
      | false => exact .text

theorem forall₂_ofLarge (cells : List (List Char)) :
    List.Forall₂ (fun c e ↦ e.IsReadIn c) cells (ofLarge cells (wordsOf cells)).entries := by
  rw [ofLarge]
  split
  · rename_i entries h
    refine forall₂_entriesOf? (fun c e hvalue he ↦ ?_) h
    obtain ⟨z, hz, rfl⟩ := Option.map_eq_some_iff.mp he
    exact .large hvalue hz
  · exact forall₂_texts cells

theorem forall₂_ofGreat (hlarge : readInt64 (wordsOf cells) = .tooLarge) :
    List.Forall₂ (fun c e ↦ e.IsReadIn c) cells (ofGreat cells (wordsOf cells)).entries := by
  rw [ofGreat]
  split
  · exact forall₂_ofLarge cells
  · exact forall₂_ofOthers cells
  · rename_i u hu
    split
    · exact forall₂_texts cells
    · rename_i hmixed
      split
      · exact forall₂_ofLarge cells
      · rename_i hminus
        have hgreat : u.great = true := (great_or_minus hlarge hu).resolve_right hminus
        have hmissing : u.missing = false := by
          simpa [hgreat, hminus] using hmixed
        exact forall₂_readUInt64 hu (Bool.eq_false_iff.mpr hminus) hmissing

/-- A piece of a column has one entry for each of its cells. -/
theorem forall₂_pieceOf (cells : List (List Char)) :
    List.Forall₂ (fun c e ↦ e.IsReadIn c) cells (pieceOf cells).entries := by
  have hwords : (cells.map fun c ↦ if Cell.isMissing c then none else some c) = wordsOf cells := rfl
  simp only [pieceOf, hwords]
  split
  · exact forall₂_ofGreat ‹_›
  · exact forall₂_ofOthers cells
  · rename_i entries h
    split
    · exact forall₂_inDouble (forall₂_readInt64 h)
    · exact forall₂_readInt64 h

theorem flatten_inPieces {α : Type} (length fuel : ℕ) (xs : List α) :
    (inPieces length fuel xs).flatten = xs := by
  induction fuel generalizing xs with
  | zero => exact List.append_nil xs
  | succ fuel ih =>
    rw [inPieces]
    split
    · exact List.append_nil xs
    · rw [List.flatten_cons, ih, List.take_append_drop]

theorem forall₂_join (pieces : List (List (List Char))) :
    List.Forall₂ (fun c e ↦ e.IsReadIn c) pieces.flatten (join (pieces.map pieceOf)) := by
  have hentries : List.Forall₂ (fun c e ↦ e.IsReadIn c) pieces.flatten
      ((pieces.map pieceOf).flatMap Piece.entries) := by
    induction pieces with
    | nil => exact .nil
    | cons cells pieces ih => exact List.rel_append (forall₂_pieceOf cells) ih
  rw [join]
  split
  · exact forall₂_inDouble hentries
  · exact hentries

/-- **The entry of a column at a place is what can be read in the cell at this place.** -/
theorem forall₂_ofCells (width : ℕ) (cells : List (List Char)) :
    List.Forall₂ (fun c e ↦ e.IsReadIn c) cells (ofCells width cells) := by
  have hjoin := forall₂_join
    (inPieces (pieceLength width) (cells.length / pieceLength width) cells)
  rwa [flatten_inPieces] at hjoin

end DegreeGraph.Column
