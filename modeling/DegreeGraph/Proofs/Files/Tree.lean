import DegreeGraph.Files.Tree
import DegreeGraph.Proofs.Stepwise
import DegreeGraph.Proofs.Text.Splitting

/-!
# What operations on files leave alone

A path is followed folder by folder, and there are no links: where it can be followed at all, it
leads where its text says (`FileTree.Locates.place_eq`). So a file that is written or moved is at
the place that its path resolves to. Whether it can be reached is up to the folders of a tree, and
files that come and go make no difference to that (`FileTree.SameFolders`).

`FileTree.AgreesOff` says that two trees hold the same texts off some places. Each operation is
described by an equation for the tree that it leaves (`FileM.run_create`, `FileM.run_append`,
`exists_admits_of_moveFile`), and what it leaves alone is read off from that. A file that is written
beside its destination and then moved there is both at once (`readFile_of_moveFile`).
-/

namespace DegreeGraph

namespace FileTree

variable {t u v : FileTree} {p q place : Place} {places : List Place}
  {name path text : String} {names : List String} {target : Target}

/-! ## Texts at places -/

theorem lookup_filter (files : List (Place × String)) (p q : Place) :
    (files.filter (·.1 != p)).lookup q = if q = p then none else files.lookup q := by
  induction files with
  | nil => rw [List.filter_nil, List.lookup_nil, ite_self]
  | cons file files ih =>
    rw [List.filter_cons, List.lookup_cons]
    by_cases hfile : file.1 = p
    · rw [if_neg (by simpa using hfile), ih]
      split
      · rfl
      · rename_i hq
        rw [beq_false_of_ne fun heq ↦ hq (heq.trans hfile)]
    · rw [if_pos (by simpa using hfile), List.lookup_cons, ih]
      split
      · rename_i hq
        rw [if_neg fun heq ↦ hfile ((beq_iff_eq.mp hq).symm.trans heq)]
      · rfl

theorem textAt?_put (t : FileTree) (p : Place) (text : String) (q : Place) :
    (t.put p text).textAt? q = if q = p then some text else t.textAt? q := by
  rw [textAt?, put, List.lookup_cons, lookup_filter]
  by_cases hq : q = p
  · rw [if_pos hq, beq_iff_eq.mpr hq, if_pos hq]
  · rw [if_neg hq, if_neg hq, beq_false_of_ne hq]
    rfl

theorem filter_filter_self (files : List (Place × String)) (p : Place) :
    (files.filter (·.1 != p)).filter (·.1 != p) = files.filter (·.1 != p) := by
  rw [List.filter_filter]
  simp only [Bool.and_self]

theorem put_put (t : FileTree) (p : Place) (text other : String) :
    (t.put p text).put p other = t.put p other := by
  rw [put, put, put, List.filter_cons, if_neg (by simp), filter_filter_self]

/-- Adding to the file that was put at a place puts the longer text there. -/
theorem extend_put (t : FileTree) (p : Place) (text more : String) :
    (t.put p text).extend p more = t.put p (text ++ more) := by
  rw [extend, textAt?_put, if_pos rfl, Option.getD_some, put_put]

theorem textAt?_remove (t : FileTree) (p q : Place) :
    (t.remove p).textAt? q = if q = p then none else t.textAt? q := by
  rw [textAt?, remove, lookup_filter]
  rfl

/-- A text that is put at one place and then moved to another. -/
theorem textAt?_moved (t : FileTree) (p q : Place) (text : String) (place : Place) :
    (((t.put p text).remove p).put q text).textAt? place
      = if place = q then some text else if place = p then none else t.textAt? place := by
  rw [textAt?_put, textAt?_remove, textAt?_put]
  split_ifs <;> rfl

/-- Two trees hold the same texts off some places. -/
def AgreesOff (places : List Place) (t u : FileTree) : Prop :=
  ∀ place ∉ places, u.textAt? place = t.textAt? place

theorem AgreesOff.trans (htu : AgreesOff places t u) (huv : AgreesOff places u v) :
    AgreesOff places t v := fun place hplace ↦ (huv place hplace).trans (htu place hplace)

theorem agreesOff_of_files_eq (h : u.files = t.files) (places : List Place) :
    AgreesOff places t u := fun place _ ↦ congrArg (·.lookup place) h

theorem agreesOff_put (t : FileTree) (p : Place) (text : String) : AgreesOff [p] t (t.put p text) :=
  fun place hplace ↦ by rw [textAt?_put, if_neg fun heq ↦ hplace (List.mem_singleton.mpr heq)]

/-- Two trees have the same folders, and relative paths start at the same one. -/
structure SameFolders (t u : FileTree) : Prop where
  work : u.work = t.work
  folders : u.folders = t.folders

theorem SameFolders.isFolder (h : SameFolders t u) (p : Place) : u.isFolder p = t.isFolder p := by
  rw [FileTree.isFolder, FileTree.isFolder, h.folders]

theorem sameFolders_put (t : FileTree) (p : Place) (text : String) :
    SameFolders t (t.put p text) := ⟨rfl, rfl⟩

/-! ## Following a path -/

/-- A name that leads on leads to where the text says. -/
theorem eq_step_of_enter (h : t.enter p name = .ok q) : q = p.step name := by
  rw [enter] at h
  rw [Place.step]
  split_ifs at h ⊢ <;> exact (Except.ok.inj h).symm

/-- Whether a name leads on is up to the folders. -/
theorem SameFolders.enter (hsame : SameFolders t u) (h : t.enter p name = .ok q) :
    u.enter p name = .ok q := by
  rw [FileTree.enter] at h ⊢
  rw [hsame.isFolder]
  split_ifs at h ⊢ <;> exact h

theorem eq_foldl_of_walk (h : t.walk p names = .ok q) : q = names.foldl Place.step p := by
  induction names generalizing p with
  | nil => exact (Except.ok.inj h).symm
  | cons name names ih =>
    obtain ⟨next, henter, hrest⟩ := Stepwise.exists_of_bind_eq_ok h
    rw [List.foldl_cons, ← eq_step_of_enter henter]
    exact ih hrest

theorem SameFolders.walk (hsame : SameFolders t u) (h : t.walk p names = .ok q) :
    u.walk p names = .ok q := by
  induction names generalizing p with
  | nil => exact h
  | cons name names ih =>
    obtain ⟨next, henter, hrest⟩ := Stepwise.exists_of_bind_eq_ok h
    rw [FileTree.walk, hsame.enter henter]
    exact ih hrest

/-- A path can be followed to its last name. -/
structure Locates (t : FileTree) (path : String) (target : Target) : Prop where
  path_ne : path ≠ ""
  size_le : path.utf8ByteSize ≤ pathLimit
  walk_eq : t.walk (Place.startOf t.work path) (trimmedNames path).dropLast = .ok target.folder
  name_eq : (trimmedNames path).getLastD "" = target.name
  trailing_eq : (path.toList.getLast? == some '/') = target.trailing

theorem locateAny_eq_ok_iff : t.locateAny path = .ok target ↔ t.Locates path target := by
  rw [locateAny]
  constructor
  · intro h
    split_ifs at h with hempty hlong
    obtain ⟨folder, hwalk, htarget⟩ := Stepwise.exists_of_bind_eq_ok h
    cases htarget
    exact ⟨mt beq_iff_eq.mpr hempty, not_lt.mp hlong, hwalk, rfl, rfl⟩
  · intro h
    rw [if_neg (mt beq_iff_eq.mp h.path_ne), if_neg (not_lt.mpr h.size_le)]
    simp only [h.walk_eq, h.name_eq, h.trailing_eq, bind, Except.bind, pure, Except.pure]

theorem SameFolders.locates (hsame : SameFolders t u) (h : t.Locates path target) :
    u.Locates path target :=
  { h with walk_eq := hsame.walk (hsame.work ▸ h.walk_eq) }

theorem locate_eq_ok_iff :
    t.locate path = .ok target ↔ t.Locates path target ∧ target.check = .ok () := by
  rw [← locateAny_eq_ok_iff, locate]
  constructor
  · intro h
    obtain ⟨other, hlocate, h⟩ := Stepwise.exists_of_bind_eq_ok h
    obtain ⟨⟨⟩, hcheck, h⟩ := Stepwise.exists_of_bind_eq_ok h
    cases h
    exact ⟨hlocate, hcheck⟩
  · rintro ⟨hlocate, hcheck⟩
    rw [hlocate]
    simp only [hcheck, bind, Except.bind, pure, Except.pure]

/-- Empty names at the end of a path lead nowhere. -/
theorem foldl_step_trimmedNames (path : String) (p : Place) :
    (trimmedNames path).foldl Place.step p = (Place.namesOf path).foldl Place.step p := by
  change ((Place.namesOf path).rdropWhile (· == "")).foldl Place.step p = _
  induction Place.namesOf path using List.reverseRecOn with
  | nil => rfl
  | append_singleton names name ih =>
    rw [List.rdropWhile_concat]
    split
    · rename_i hempty
      rw [ih, List.foldl_concat, beq_iff_eq.mp hempty]
      rfl
    · rfl

theorem Target.step_name (hdots : target.isDots = false) (p : Place) :
    p.step target.name = p ++ [target.name] := by
  rw [Target.isDots, Bool.or_eq_false_iff] at hdots
  rw [Place.step, hdots.1, hdots.2]
  rfl

/-- **A path whose last name is that of a file leads where its text says.** -/
theorem Locates.place_eq (h : t.Locates path target) (hdots : target.isDots = false) :
    target.place = Place.resolve t.work path := by
  have hnames : trimmedNames path ≠ [] := by
    intro hnil
    rw [Target.isDots, ← h.name_eq, hnil] at hdots
    cases hdots
  have hlast : (trimmedNames path).getLast hnames = target.name := by
    rw [← h.name_eq, List.getLastD_eq_getLast?, List.getLast?_eq_some_getLast hnames]
    rfl
  rw [Place.resolve, ← foldl_step_trimmedNames, ← List.dropLast_concat_getLast hnames,
    List.foldl_concat, ← eq_foldl_of_walk h.walk_eq, hlast, Target.step_name hdots]
  rfl

/-- More text behind a path goes to its last name, unless the path ends with a slash. -/
theorem exists_namesOf_append (hne : path ≠ "") (hslash : path.toList.getLast? ≠ some '/') :
    ∃ front name, name ≠ "" ∧ ∀ more : String, '/' ∉ more.toList →
      Place.namesOf (path ++ more) = front ++ [name ++ more] := by
  have hchars : path.toList ≠ [] := mt String.toList_eq_nil_iff.mp hne
  obtain ⟨front, last, hpieces⟩ := Text.exists_piecesBetween_append '/' path.toList.dropLast
  let final := path.toList.getLast hchars
  have hfinal : '/' ≠ final := by
    intro heq
    exact hslash ((List.getLast?_eq_some_getLast hchars).trans (congrArg some heq.symm))
  refine ⟨front.map String.ofList, String.ofList (last ++ [final]), ?_, fun more hmore ↦ ?_⟩
  · rw [← String.toList_inj.ne, String.toList_ofList]
    exact List.concat_ne_nil _ _
  · have hsplit : (path ++ more).toList = path.toList.dropLast ++ final :: more.toList := by
      rw [String.toList_append, List.append_cons, List.dropLast_concat_getLast hchars]
    have hlast : String.ofList (last ++ final :: more.toList)
        = String.ofList (last ++ [final]) ++ more := by
      rw [← String.toList_inj, String.toList_append, String.toList_ofList, String.toList_ofList]
      exact List.append_cons last final more.toList
    have hcut : '/' ∉ final :: more.toList := by
      rw [List.mem_cons, not_or]
      exact ⟨hfinal, hmore⟩
    rw [Place.namesOf, hsplit, hpieces _ hcut, List.map_append, List.map_singleton, hlast]

theorem step_ne {other : String} (h : other ≠ name) (p : Place) : p.step other ≠ p ++ [name] := by
  intro heq
  have hlength := congrArg List.length heq
  rw [Place.step] at heq hlength
  split_ifs at heq hlength
  · simp at hlength
  · simp only [List.length_dropLast, List.length_append, List.length_singleton] at hlength
    omega
  · exact h (List.singleton_inj.mp (List.append_cancel_left heq))

/-- A path to a file, with more text behind it, leads to another place. -/
theorem Locates.resolve_append_ne (h : t.Locates path target) (htrailing : target.trailing = false)
    (hdots : target.isDots = false) {more : String} (hmore : more ≠ "")
    (hslash : '/' ∉ more.toList) :
    Place.resolve t.work (path ++ more) ≠ Place.resolve t.work path := by
  have hchars : path.toList ≠ [] := mt String.toList_eq_nil_iff.mp h.path_ne
  obtain ⟨front, name, hname, hnames⟩ := exists_namesOf_append h.path_ne
    (by simpa [htrailing] using h.trailing_eq)
  have hpath : Place.namesOf path = front ++ [name] := by
    simpa using hnames "" (by simp)
  have hstart : Place.startOf t.work (path ++ more) = Place.startOf t.work path := by
    rw [Place.startOf, Place.startOf, Place.isAbsolute, Place.isAbsolute, String.toList_append,
      List.head?_append_of_ne_nil _ hchars]
  have hlast : target.name = name := by
    have htrimmed : trimmedNames path = front ++ [name] := by
      change (Place.namesOf path).rdropWhile (· == "") = _
      rw [hpath, List.rdropWhile_concat, if_neg (mt beq_iff_eq.mp hname)]
    rw [← h.name_eq, htrimmed, List.getLastD_concat]
  have hother : name ++ more ≠ name := by
    intro heq
    refine hmore (String.toList_eq_nil_iff.mp ?_)
    simpa using congrArg String.toList heq
  rw [Place.resolve, Place.resolve, hstart, hnames more hslash, hpath, List.foldl_concat,
    List.foldl_concat, ← hlast, Target.step_name hdots, hlast]
  exact step_ne hother _

/-! ## Operations -/

theorem makeFolders_keeps (t : FileTree) (p : Place) (names : List String) :
    (t.makeFolders p names).1.work = t.work ∧ (t.makeFolders p names).1.files = t.files := by
  induction names generalizing t p with
  | nil => exact ⟨rfl, rfl⟩
  | cons name names ih =>
    simp only [makeFolders]
    split
    · exact ih t _
    · split
      · exact ⟨rfl, rfl⟩
      · split
        · exact ⟨rfl, rfl⟩
        · exact ih { t with folders := t.folders ++ [p ++ [name]] } _

/-- A file can be made or replaced at the end of a path. -/
structure Admits (t : FileTree) (path : String) (target : Target) : Prop extends
    t.Locates path target where
  check_eq : target.check = .ok ()
  isDots_eq : target.isDots = false
  trailing_eq_false : target.trailing = false
  isFolder_eq : t.isFolder target.place = false

theorem exists_admits_of_placeFor (h : t.placeFor path = .ok place) :
    ∃ target, t.Admits path target ∧ place = target.place := by
  obtain ⟨target, hlocate, h⟩ := Stepwise.exists_of_bind_eq_ok h
  split_ifs at h with hfolder hplace
  · obtain ⟨⟨⟩, -, h⟩ := Stepwise.exists_of_bind_eq_ok h
    cases h
  · obtain ⟨⟨⟩, hcheck, h⟩ := Stepwise.exists_of_bind_eq_ok h
    obtain ⟨hdots, htrailing⟩ : target.isDots = false ∧ target.trailing = false := by
      simpa using hfolder
    exact ⟨target, ⟨locateAny_eq_ok_iff.mp hlocate, hcheck, hdots, htrailing,
      Bool.eq_false_iff.mpr hplace⟩, (Except.ok.inj h).symm⟩

theorem exists_admits_of_moveFile {source : String} (h : t.moveFile source path = .ok u) :
    ∃ s target text, t.locate source = .ok s ∧ t.Admits path target ∧
      t.textAt? s.place = some text ∧ u = (t.remove s.place).put target.place text := by
  obtain ⟨s, hsource, h⟩ := Stepwise.exists_of_bind_eq_ok h
  obtain ⟨target, htarget, h⟩ := Stepwise.exists_of_bind_eq_ok h
  obtain ⟨hlocates, hcheck⟩ := locate_eq_ok_iff.mp htarget
  cases htext : t.textAt? s.place with
  | none =>
    rw [htext] at h
    cases h
  | some text =>
    rw [htext] at h
    simp only at h
    split_ifs at h with hdots htrailing hplace
    exact ⟨s, target, text, hsource, ⟨hlocates, hcheck, Bool.eq_false_iff.mpr hdots,
      Bool.eq_false_iff.mpr htrailing, Bool.eq_false_iff.mpr hplace⟩, htext,
      (Except.ok.inj h).symm⟩

theorem SameFolders.admits (hsame : SameFolders t u) (h : t.Admits path target) :
    u.Admits path target :=
  { h with
    toLocates := hsame.locates h.toLocates
    isFolder_eq := (hsame.isFolder target.place).trans h.isFolder_eq }

/-- Where a file can be made, reading tells whether one is there. -/
theorem Admits.readFile_eq (h : t.Admits path target) : t.readFile path
    = match t.textAt? target.place with
      | some text => .ok text
      | none => .error .missing := by
  rw [readFile, locate_eq_ok_iff.mpr ⟨h.toLocates, h.check_eq⟩]
  simp only [bind, Except.bind, h.isDots_eq, h.isFolder_eq, h.trailing_eq_false]
  cases t.textAt? target.place <;> rfl

/-- **A file that stands beside its destination and is moved there.** It is at the destination and
no more beside it, and all other files are as they were. -/
theorem readFile_of_moveFile {more : String} {source : Target} (hmore : more ≠ "")
    (hslash : '/' ∉ more.toList) (hsource : t.Admits (path ++ more) source)
    (hmove : (t.put source.place text).moveFile (path ++ more) path = .ok v) :
    v.readFile path = .ok text ∧ v.readFile (path ++ more) = .error .missing ∧
      AgreesOff [Place.resolve t.work path, Place.resolve t.work (path ++ more)] t v := by
  obtain ⟨source', target, text', hlocate, htarget, htext, rfl⟩ := exists_admits_of_moveFile hmove
  have hput := sameFolders_put t source.place text
  -- The tree has other files now, but the path beside the destination leads to the same place.
  obtain rfl : source = source' := Except.ok.inj
    ((locate_eq_ok_iff.mpr ⟨hput.locates hsource.toLocates, hsource.check_eq⟩).symm.trans hlocate)
  obtain rfl : text = text' := by
    rw [textAt?_put, if_pos rfl] at htext
    exact Option.some.inj htext
  have hmoved : SameFolders (t.put source.place text)
      (((t.put source.place text).remove source.place).put target.place text) := ⟨rfl, rfl⟩
  have htargetPlace : target.place = Place.resolve t.work path :=
    htarget.place_eq htarget.isDots_eq
  have hsourcePlace := hsource.place_eq hsource.isDots_eq
  have hne : source.place ≠ target.place := by
    rw [hsourcePlace, htargetPlace]
    exact htarget.resolve_append_ne htarget.trailing_eq_false htarget.isDots_eq hmore hslash
  refine ⟨?_, ?_, fun place hplace ↦ ?_⟩
  · rw [(hmoved.admits htarget).readFile_eq, textAt?_moved, if_pos rfl]
  · rw [(hmoved.admits (hput.admits hsource)).readFile_eq, textAt?_moved, if_neg hne, if_pos rfl]
  · rw [List.mem_cons, List.mem_singleton, not_or, ← htargetPlace, ← hsourcePlace] at hplace
    rw [textAt?_moved, if_neg hplace.1, if_neg hplace.2]

end FileTree

/-! ## Operations as steps -/

namespace FileM

variable {path text : String} {t : FileTree}

theorem run_ofAnswer {α : Type} (answer : Except Fault α) (t : FileTree) :
    (ofAnswer answer).run t = (answer, t) := by
  cases answer with
  | ok a => rfl
  | error fault => rfl

theorem run_checkPath (path : String) (t : FileTree) :
    (checkPath path).run t = (.ok (), t) ∨ (checkPath path).run t = (.error .zeroInPath, t) := by
  rw [checkPath]
  split
  · exact .inr rfl
  · exact .inl rfl

/-- Making folders touches no file, whether it fails or not. -/
theorem run_makeFolderOf (path : String) (t : FileTree) :
    ∃ answer u, (makeFolderOf path).run t = (answer, u) ∧ u.work = t.work ∧ u.files = t.files := by
  obtain ⟨hwork, hfiles⟩ :=
    FileTree.makeFolders_keeps t [] (Place.folder (Place.resolve t.work path))
  rw [makeFolderOf, Stepwise.run_bind, Stepwise.run_get]
  simp only
  rw [Stepwise.run_bind]
  rcases run_checkPath (Place.toPath (Place.folder (Place.resolve t.work path))) t with hok | hzero
  · rw [hok]
    simp only [Stepwise.run_bind]
    cases (t.makeFolders [] (Place.folder (Place.resolve t.work path))).2 with
    | none => exact ⟨_, _, rfl, hwork, hfiles⟩
    | some trouble => exact ⟨_, _, rfl, hwork, hfiles⟩
  · rw [hzero]
    exact ⟨_, t, rfl, rfl, rfl⟩

/-- A file is opened and stands empty, or nothing happens. -/
theorem run_create (path : String) (t : FileTree) :
    (∃ place, t.placeFor path = .ok place ∧ (create path).run t = (.ok place, t.put place "")) ∨
      ∃ fault, (create path).run t = (.error fault, t) := by
  rw [create, Stepwise.run_bind]
  rcases run_checkPath path t with hok | hzero
  · rw [hok]
    cases hplace : t.placeFor path with
    | ok place =>
      simp only [Stepwise.run_bind, Stepwise.run_get, Stepwise.run_modify, hplace]
      exact .inl ⟨place, rfl, rfl⟩
    | error trouble =>
      simp only [Stepwise.run_bind, Stepwise.run_get, hplace]
      exact .inr ⟨_, rfl⟩
  · rw [hzero]
    exact .inr ⟨_, rfl⟩

/-- Text that is added to a file stands behind its text. -/
theorem run_append (t : FileTree) (place : Place) (text more : String) :
    (append place more).run (t.put place text) = (.ok (), t.put place (text ++ more)) := by
  rw [append, Stepwise.run_modify, FileTree.extend_put]

/-- A file is moved, or nothing happens. -/
theorem run_move (source target : String) (t : FileTree) :
    (∃ u, t.moveFile source target = .ok u ∧ (move source target).run t = (.ok (), u)) ∨
      ∃ fault, (move source target).run t = (.error fault, t) := by
  rw [move, Stepwise.run_bind, Stepwise.run_get]
  cases hmove : t.moveFile source target with
  | ok u => exact .inl ⟨u, rfl, by simp only [hmove]; rfl⟩
  | error trouble => exact .inr ⟨_, by simp only [hmove]; rfl⟩

end FileM

end DegreeGraph
