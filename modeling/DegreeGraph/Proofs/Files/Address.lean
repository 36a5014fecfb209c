import DegreeGraph.Proofs.Files.Tree
import DegreeGraph.Table.Degrees

/-!
# Addresses that are paths

Most addresses are plain paths: they name no scheme and no home folder, and reading them is reading
the file at the path (`Address.IsPlain.read_eq`). A path without a colon is plain, unless it begins
with the mark of a home folder or with two slashes, behind which a computer would be named
(`Address.isPlain_of_notMem`). What the file is packed with is told by the ending of the path, and
a table that ends like one is not packed (`Packing.ofPath?_eq_none_of_csv`).
-/

namespace DegreeGraph

open DegreeGraph.Text

variable {path text : String} {t : FileTree}

namespace Address

/-- An address is the path that it is written as. -/
structure IsPlain (path : String) : Prop where
  isPath_eq : isPath path = .ok true
  expandHome_eq : expandHome path = path

/-- The file at a plain address is that at the path. -/
theorem IsPlain.read_eq (h : IsPlain path) : Address.read path = FileM.read path := by
  obtain ⟨scheme, hscheme, hpath⟩ := Stepwise.exists_of_bind_eq_ok h.isPath_eq
  obtain ⟨hknown, hpackage⟩ : knownSchemes.contains scheme = false ∧ needsPackage path = false := by
    simpa [pure, Except.pure] using hpath
  simp only [Address.read, hscheme, FileM.ofAnswer, pure_bind, hknown, hpackage, h.expandHome_eq,
    Bool.false_eq_true, if_false]

/-- A text without a colon names no scheme. -/
theorem splitScheme_of_notMem {s : List Char} (h : ':' ∉ s) : splitScheme s = ([], s) := by
  have hall : s.takeWhile (· != ':') = s := by
    refine List.takeWhile_eq_self_iff.mpr fun c hc ↦ bne_iff_ne.mpr ?_
    rintro rfl
    exact h hc
  simp only [splitScheme, hall, lt_self_iff_false, decide_false, Bool.false_and, Bool.false_eq_true,
    if_false]

theorem host?_eq_none {s : List Char} (h : ¬['/', '/'] <+: s) : host? s = none := by
  rw [host?.eq_def]
  split
  · exact absurd ⟨_, rfl⟩ h
  · rfl

theorem isChain_of_notMem {s : List Char} (h : ':' ∉ s) (fuel : ℕ) : isChain fuel s = false := by
  have hrest : ':' ∉ s.dropWhile isSchemeChar := fun hmem ↦
    h ((List.dropWhile_sublist isSchemeChar).mem hmem)
  cases fuel with
  | zero => rfl
  | succ fuel =>
    rw [isChain]
    split
    · rename_i hcons
      exact absurd (hcons ▸ List.mem_cons_self) hrest
    · rename_i hcons
      exact absurd (hcons ▸ List.mem_cons_self) hrest
    · rfl

/-- **A path without a colon is plain**, unless it begins with the mark of a home folder or with two
slashes. -/
theorem isPlain_of_notMem (hcolon : ':' ∉ path.toList) (hhome : path.toList.head? ≠ some '~')
    (hslashes : ¬['/', '/'] <+: (path.toList.dropWhile isLeading).filter (!isSkipped ·)) :
    IsPlain path := by
  have hnone : ':' ∉ (path.toList.dropWhile isLeading).filter (!isSkipped ·) := fun hmem ↦
    hcolon ((List.dropWhile_sublist isLeading).mem (List.mem_filter.mp hmem).1)
  have hscheme : scheme path = .ok "" := by
    simp only [scheme, splitScheme_of_notMem hnone, host?_eq_none hslashes]
    rfl
  have hpackage : needsPackage path = false := by
    rw [needsPackage, isChain_of_notMem hcolon, Bool.and_false]
  constructor
  · rw [isPath, hscheme, hpackage]
    rfl
  · have hmark : ¬homeMarks.contains (String.ofList (path.toList.takeWhile (· != '/'))) := by
      have hmarks : ∀ mark ∈ homeMarks, mark.toList.head? = some '~' := by decide
      intro hmem
      have hfirst := hmarks _ (List.contains_iff_mem.mp hmem)
      rw [String.toList_ofList] at hfirst
      obtain ⟨rest, hpath⟩ := List.takeWhile_prefix (l := path.toList) (· != '/')
      refine hhome ?_
      rw [← hpath, List.head?_append, hfirst]
      rfl
    simp only [expandHome, if_neg hmark]

end Address

/-- The file at a path that ends like a table is not packed. -/
theorem Packing.ofPath?_eq_none_of_csv (h : ".csv".toList <:+ path.toList) :
    Packing.ofPath? path = none := by
  have hlast : (path.toList.map Char.toLower).getLast? = some 'v' := by
    obtain ⟨front, hpath⟩ := h
    rw [← hpath, List.map_append, List.getLast?_append]
    rfl
  have hendings : ∀ e ∈ endings, e.1.toList ≠ [] ∧ e.1.toList.getLast? ≠ some 'v' := by decide
  rw [ofPath?, List.find?_eq_none.mpr, Option.map_none]
  intro e he hsuffix
  obtain ⟨hne, hother⟩ := hendings e he
  obtain ⟨front, hpath⟩ := List.isSuffixOf_iff_suffix.mp hsuffix
  rw [← hpath, List.getLast?_append_of_ne_nil _ hne] at hlast
  exact hother hlast

/-- The degrees at a plain path that is not packed are those in the text of its file. -/
theorem readDegreeColumn_eq_of_isPlain (hplain : Address.IsPlain path)
    (hpacked : Packing.ofPath? path = none) (column : Datum) : readDegreeColumn path column
      = FileM.read path >>= fun text ↦ FileM.ofAnswer (degreesIn .file path column text) := by
  simp only [readDegreeColumn, hplain.isPath_eq, hplain.read_eq, checkUnpacker, hpacked,
    reduceCtorEq, if_true, if_false, FileM.ofAnswer, pure_bind]

/-! ## Files that were written -/

namespace FileM

theorem run_checkPath_of_notMem (h : '\x00' ∉ path.toList) (t : FileTree) :
    (checkPath path).run t = (.ok (), t) := by
  rw [checkPath, if_neg (mt List.contains_iff_mem.mp h)]
  rfl

/-- What is opened is at a path without the character of code zero. -/
theorem notMem_of_run_create {place : Place} {u : FileTree}
    (h : (create path).run t = (.ok place, u)) : '\x00' ∉ path.toList := by
  intro hzero
  obtain ⟨_, _, hcheck, -⟩ := Stepwise.exists_run_of_bind h
  rw [checkPath, if_pos (List.contains_iff_mem.mpr hzero)] at hcheck
  cases hcheck

theorem run_read (hzero : '\x00' ∉ path.toList) (h : t.readFile path = .ok text) :
    (read path).run t = (.ok text, t) := by
  rw [read, Stepwise.run_bind, run_checkPath_of_notMem hzero]
  simp only [Stepwise.run_bind, Stepwise.run_get, h]
  rfl

end FileM

end DegreeGraph
