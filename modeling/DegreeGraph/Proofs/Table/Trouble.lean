import DegreeGraph.Command.Session
import DegreeGraph.Proofs.Files.Address
import DegreeGraph.Proofs.Table.Degrees

/-!
# What is wrong with a table

A table can be wrong in its text, in its columns, or in its numbers. Nearly all of these failures
are bad values. Three are not: a number beyond the doubles, a row label that is infinite, and row
labels of several cells (`Fault.OfTable`). The labels are read only to tell which rows are
wrong. At a plain path that is not packed nothing else can go wrong but with the file
(`ofTable_of_run_readDegreeColumn`).
-/

namespace DegreeGraph

open DegreeGraph.Number DegreeGraph.Packed Stepwise

variable {fault : Fault} {text path name : String} {sheet : Sheet} {i : ℕ}

/-! ## Text -/

namespace Rows

theorem fault_close {l : Line} {place : Place} {below : Rows}
    (h : (l.close place below).fault = some fault) : below.fault = some fault := by
  rw [Line.close] at h
  split at h
  · exact h
  · exact h

/-- All that can be wrong with the rows of a text is a quote that is left open. -/
theorem exists_openQuote_of_scan {place : Place} {l : Line} {s : List Char}
    (h : (scan place l s).fault = some fault) : ∃ row, fault = .openQuote row := by
  induction s generalizing place l with
  | nil =>
    rw [scan] at h
    split at h
    · exact ⟨l.before, (Option.some.inj h).symm⟩
    · cases fault_close h
  | cons c rest ih =>
    rw [scan] at h
    split_ifs at h
    · exact ih h
    · exact ih h
    · exact ih h
    · exact ih h
    · exact ih (fault_close h)
    · exact ih (fault_close h)
    · exact ih h
    · exact ih h
    · exact ih h
    · exact ih h
    · exact ih h
    · exact ih h

end Rows

namespace Sheet

theorem isBadInput_of_fillRows {width : ℕ} {rows : List Row}
    (h : fillRows width rows = .error fault) : fault.isBadInput = true := by
  induction rows with
  | nil => cases h
  | cons row rows ih =>
    rw [fillRows] at h
    split at h
    · cases h
      rfl
    · rcases cases_of_bind_eq_error h with hlater | ⟨later, -, h⟩
      · exact ih hlater
      · cases h

/-- A text that is no table is a bad value. -/
theorem isBadInput_of_ofText (h : ofText text = .error fault) : fault.isBadInput = true := by
  have hopen {cause : Fault} (hcause : (Rows.ofText text).fault = some cause) :
      cause.isBadInput = true := by
    obtain ⟨row, rfl⟩ := Rows.exists_openQuote_of_scan hcause
    rfl
  rw [ofText] at h
  simp only at h
  split at h
  · cases hfault : (Rows.ofText text).fault with
    | none =>
      rw [hfault] at h
      cases h
      rfl
    | some cause =>
      rw [hfault] at h
      cases h
      exact hopen hfault
  · rename_i header body hrows
    rcases cases_of_bind_eq_error h with hfill | ⟨cells, -, h⟩
    · exact isBadInput_of_fillRows hfill
    · split at h
      · rename_i cause hcause
        cases h
        exact hopen hcause
      · cases h

end Sheet

/-! ## Numbers -/

/-- The failures of a table: bad input, and numbers and labels that are no integers and not put down
to the input. -/
inductive Fault.OfTable : Fault → Prop
  | badInput {fault : Fault} (h : fault.isBadInput = true) : OfTable fault
  | oversized : OfTable .oversizedForDouble
  | infiniteLabel : OfTable .infiniteNumber
  | severalLabels : OfTable (.notNumber "tuple")

theorem Fault.OfTable.mem_of_isBadInput_eq_false (h : fault.OfTable)
    (hbad : fault.isBadInput = false) :
    fault ∈ [.oversizedForDouble, .infiniteNumber, .notNumber "tuple"] := by
  cases h with
  | badInput h => cases hbad.symm.trans h
  | oversized => exact List.mem_cons_self
  | infiniteLabel => exact List.mem_cons_of_mem _ List.mem_cons_self
  | severalLabels => exact List.mem_cons_of_mem _ (List.mem_cons_of_mem _ List.mem_cons_self)

theorem Column.Entry.ofTable_of_integer {e : Column.Entry} (h : e.integer = .error fault) :
    fault.OfTable := by
  cases e with
  | missing =>
    cases h
    exact .badInput rfl
  | truth b => cases h
  | whole z => cases h
  | decimal x =>
    rw [Entry.integer, truncated] at h
    split at h
    · cases h
    · cases h
      exact .infiniteLabel
  | text s =>
    rw [Entry.integer, integerIn, integerOf] at h
    split at h
    · cases h
    · cases h
      split
      · exact .badInput rfl
      · exact .badInput rfl
    · cases h
      exact .badInput rfl

theorem ofTable_of_rowLabels {labels : Column} {rows : List ℕ}
    (h : rowLabels sheet labels rows = .error fault) : fault.OfTable := by
  induction rows with
  | nil => cases h
  | cons row rows ih =>
    rcases cases_of_bind_eq_error h with hlabel | ⟨label, -, h⟩
    · rw [rowLabel] at hlabel
      split at hlabel
      · cases hlabel
      · split at hlabel
        · cases hlabel
          exact .severalLabels
        · exact Column.Entry.ofTable_of_integer hlabel
    · rcases cases_of_bind_eq_error h with hlater | ⟨later, -, h⟩
      · exact ih hlater
      · cases h

namespace Sheet

theorem ofTable_of_degreesAt (h : sheet.degreesAt path name i = .error fault) : fault.OfTable := by
  rcases cases_of_bind_eq_error h with hnumbers | ⟨numbers, -, h⟩
  · rcases Column.numbers_cases (sheet.columnAt i) with ⟨_, hok, -⟩ | ⟨_, hok, -⟩ | hfault
    · cases hok.symm.trans hnumbers
    · cases hok.symm.trans hnumbers
    · cases hfault.symm.trans hnumbers
      exact .oversized
  · split at h
    · cases h
    · split at h
      · split at h
        · cases h
        · cases h
          exact .badInput rfl
      · rcases cases_of_bind_eq_error h with hlabels | ⟨labels, -, h⟩
        · exact ofTable_of_rowLabels hlabels
        · cases h
          exact .badInput rfl

theorem ofTable_of_degrees (h : sheet.degrees path (.text name) = .error fault) :
    fault.OfTable := by
  rw [degrees] at h
  split at h
  · exact ofTable_of_degreesAt h
  · cases h
    exact .badInput rfl

end Sheet

/-! ## Files -/

theorem ofTable_of_degreesIn {medium : Medium} (hpacked : Packing.ofPath? path = none)
    (h : degreesIn medium path (.text name) text = .error fault) : fault.OfTable := by
  rw [degreesIn, Sheet.ofFile, hpacked] at h
  rcases cases_of_bind_eq_error h with hsheet | ⟨sheet, -, hdegrees⟩
  · exact .badInput (Sheet.isBadInput_of_ofText hsheet)
  · exact Sheet.ofTable_of_degrees hdegrees

/-- A file that cannot be read is bad input. -/
theorem FileM.isBadInput_of_read {t : FileTree} (h : ((FileM.read path).run t).1 = .error fault) :
    fault.isBadInput = true := by
  rcases cases_of_run_bind_eq_error (Prod.ext h rfl) with hcheck | ⟨_, v, -, h⟩
  · rw [checkPath] at hcheck
    split at hcheck
    · cases hcheck
      rfl
    · cases hcheck
  · rcases cases_of_run_bind_eq_error h with hget | ⟨w, v', -, h⟩
    · cases hget
    · split at h
      · cases h
      · cases h
        rfl

/-- **At a plain path that is not packed the file or its table is wrong, and nothing else.** -/
theorem ofTable_of_run_readDegreeColumn {t : FileTree} (hplain : Address.IsPlain path)
    (hpacked : Packing.ofPath? path = none)
    (h : ((readDegreeColumn path (.text name)).run t).1 = .error fault) : fault.OfTable := by
  rw [readDegreeColumn_eq_of_isPlain hplain hpacked] at h
  rcases cases_of_run_bind_eq_error (Prod.ext h rfl) with hread | ⟨text, v, -, h⟩
  · exact .badInput (FileM.isBadInput_of_read (congrArg Prod.fst hread))
  · rw [FileM.run_ofAnswer] at h
    exact ofTable_of_degreesIn hpacked (Prod.mk.inj h).1

end DegreeGraph
