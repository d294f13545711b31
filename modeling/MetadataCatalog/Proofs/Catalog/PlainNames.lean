import MetadataCatalog.Proofs.Catalog.NewFiles

/-!
# Plain names

A plain name, as a path, leads from the working directory to what has the name there, and as an
address to the database in that file (`Path.IsPlain.run_ofAddress`).
-/

namespace MetadataCatalog

/-- The name of a side file is longer than dots are. -/
theorem SideFile.name_ne_dots (side : SideFile) (name : String) :
    side.name name ≠ "." ∧ side.name name ≠ ".." := by
  have hlong : 2 < (side.name name).length := by
    have hending : 2 < side.ending.length := by cases side <;> decide
    rw [SideFile.name, String.length_append]
    omega
  constructor <;> (intro heq; rw [heq] at hlong; exact absurd hlong (by decide))

/-- From the top a name in the working directory is found there. -/
theorem FileTree.resolve_workingPlace {tree : Files} (hwork : tree.HasWorkingFolder) (links : Nat)
    (name : String) :
    tree.resolve links [] (workingPlace ++ [name]) = tree.resolve links workingPlace [name] := by
  have htop : tree.kindAt? ([] ++ ["tmp"]) = some .folder :=
    FileTree.folderAt_iff_kindAt?.mp (hwork.above ⟨[""], rfl⟩)
  have hfolder : tree.kindAt? (["tmp"] ++ [""]) = some .folder :=
    FileTree.folderAt_iff_kindAt?.mp hwork
  show tree.resolve links [] ["tmp", "", name] = _
  rw [FileTree.resolve_name (by decide) (by decide) (by decide), htop]
  show tree.resolve links ["tmp"] ["", name] = _
  rw [FileTree.resolve_name (by decide) (by decide) (by decide), hfolder]
  rfl

/-- A short name without slashes and escapes that is no option, dot or spare database. -/
structure Path.IsPlain (name : String) : Prop where
  steps : Path.steps? name = some [name]
  relative : Path.isAbsolute name = false
  dot : name ≠ "."
  dots : name ≠ ".."
  short : FileTree.fullLength (FileTree.workingPlace ++ [name]) ≤ 100
  address : Address.ofText? name = some (Address.ofPath name)
  file : (Address.ofPath name).isSpare = false

instance (name : String) : Decidable (Path.IsPlain name) :=
  decidable_of_iff
    (Path.steps? name = some [name] ∧ Path.isAbsolute name = false ∧ name ≠ "." ∧ name ≠ ".." ∧
      FileTree.fullLength (FileTree.workingPlace ++ [name]) ≤ 100 ∧
      Address.ofText? name = some (Address.ofPath name) ∧ (Address.ofPath name).isSpare = false)
    ⟨fun ⟨steps, relative, dot, dots, short, address, file⟩ =>
      { steps, relative, dot, dots, short, address, file },
      fun h => ⟨h.steps, h.relative, h.dot, h.dots, h.short, h.address, h.file⟩⟩

namespace Path.IsPlain

open FileTree (workingPlace)

variable {name : String} (h : IsPlain name)
include h

theorem size_le : name.utf8ByteSize ≤ 84 := by
  have hne : name ≠ "" := by
    rintro rfl
    exact nomatch h.steps
  have hshort := h.short
  simp only [FileTree.fullLength, workingPlace, List.cons_append, List.nil_append, List.foldr_cons,
    List.foldr_nil, if_neg hne, FileTree.workingNameLength, if_true] at hshort
  have htmp : ("tmp" : String).utf8ByteSize = 3 := by decide
  split at hshort <;> omega

theorem isUsable : Path.isUsable name = true :=
  decide_eq_true (Nat.le_trans h.size_le (by decide))

theorem isUsable_side (side : SideFile) : Path.isUsable (side.name name) = true := by
  refine decide_eq_true ?_
  have hending : side.ending.utf8ByteSize ≤ 8 := by cases side <;> decide
  have hsize := h.size_le
  rw [SideFile.name, String.utf8ByteSize_append, Path.nameLimit]
  omega

theorem startOf_eq : FileTree.startOf name = workingPlace := by
  rw [FileTree.startOf, h.relative, if_neg Bool.false_ne_true]

theorem steps_eq : Path.steps name = [name] := by
  have hsteps := h.steps
  rw [Path.steps?] at hsteps
  split at hsteps
  · cases hsteps
  · exact Option.some.inj hsteps

/-! ## §1 Where a name leads -/

section Places

variable {α : Type} {tree : FileTree α}

theorem placeOf_eq (tree : FileTree α) :
    tree.placeOf name = tree.resolve FileTree.linkLimit workingPlace [name] := by
  rw [FileTree.placeOf, h.steps, h.startOf_eq]

theorem placeOf_file {content : α}
    (hat : tree.at? (workingPlace ++ [name]) = some (.file content)) :
    tree.placeOf name = .taken (workingPlace ++ [name]) := by
  have hkind : tree.kindAt? (workingPlace ++ [name]) = some .file :=
    congrArg (Option.map FileTree.kind) hat
  rw [h.placeOf_eq, FileTree.resolve_name h.dot h.dots h.isUsable, hkind]
  rfl

theorem placeOf_folder (hat : tree.FolderAt (workingPlace ++ [name])) :
    tree.placeOf name = .taken (workingPlace ++ [name]) := by
  rw [h.placeOf_eq, FileTree.resolve_name h.dot h.dots h.isUsable,
    FileTree.folderAt_iff_kindAt?.mp hat]
  show FileTree.resolve _ _ _ [] = _
  rw [FileTree.resolve]

theorem placeOf_free (hnone : tree.at? (workingPlace ++ [name]) = none) :
    tree.placeOf name = .free workingPlace name := by
  have hkind : tree.kindAt? (workingPlace ++ [name]) = none :=
    congrArg (Option.map FileTree.kind) hnone
  rw [h.placeOf_eq, FileTree.resolve_name h.dot h.dots h.isUsable, hkind]
  rfl

/-- To a database a name leads whether there is a file or nothing. -/
theorem databasePlace?_eq (hwork : tree.HasWorkingFolder)
    (hlink : ∀ target, tree.kindAt? (workingPlace ++ [name]) ≠ some (.link target)) :
    tree.databasePlace? name = some (workingPlace ++ [name]) := by
  -- the name is short enough to be looked up, and no link is followed
  have hway : ¬ (FileTree.wayLimit < FileTree.fullLength (workingPlace ++ [name]) ∨
      Path.isUsable name = false) := by
    have hshort := h.short
    rw [h.isUsable, FileTree.wayLimit]
    simp only [Bool.true_eq_false, or_false]
    omega
  rw [FileTree.databasePlace?, h.steps_eq, h.startOf_eq,
    FileTree.canonical?_of_folderAt hwork h.dot h.dots hlink, if_neg hway, FileTree.canonical?,
    Option.filter_some, if_pos]
  exact decide_eq_true (Nat.le_trans h.short (by decide))

end Places

/-! ## §2 Side files -/

/-- Nothing has the name of a side file, and a file can have it. -/
theorem hasFree {tree : Files} (hwork : tree.HasWorkingFolder) {side : SideFile}
    (hnone : tree.at? (workingPlace ++ [side.name name]) = none) :
    tree.HasFree (workingPlace ++ [name]) side := by
  have hkind : tree.kindAt? (workingPlace ++ [side.name name]) = none := by
    rw [FileTree.kindAt?, hnone]
    rfl
  rw [FileTree.HasFree, SideFile.place_concat, FileTree.resolve_workingPlace hwork,
    List.dropLast_concat, List.getLast?_concat, Option.getD_some,
    FileTree.resolve_name (side.name_ne_dots name).1 (side.name_ne_dots name).2
      (h.isUsable_side side), hkind]
  rfl

/-- A file with content under the name of a side file is present. -/
theorem isPresent {tree : Files} (hwork : tree.HasWorkingFolder) {side : SideFile}
    {content : Content} (hat : tree.at? (workingPlace ++ [side.name name]) = some (.file content))
    (hfull : content.beginning ≠ []) :
    tree.isPresent (side.place (workingPlace ++ [name])) = true := by
  have hkind : tree.kindAt? (workingPlace ++ [side.name name]) = some .file := by
    rw [FileTree.kindAt?, hat]
    rfl
  have htaken : tree.resolve FileTree.linkLimit [] (side.place (workingPlace ++ [name])) =
      .taken (workingPlace ++ [side.name name]) := by
    rw [SideFile.place_concat, FileTree.resolve_workingPlace hwork,
      FileTree.resolve_name (side.name_ne_dots name).1 (side.name_ne_dots name).2
        (h.isUsable_side side), hkind]
    rfl
  rw [FileTree.isPresent, htaken]
  simp only [hat, hfull, ne_eq, not_false_eq_true, decide_true]

end Path.IsPlain

/-! ## §3 Databases -/

/-- The connection that a plain name leads to. -/
def Connection.ofName (name : String) : Connection :=
  ⟨.file (FileTree.workingPlace ++ [name]), (Address.ofPath name).access⟩

@[simp]
theorem Connection.mayChange_ofName (name : String) : (ofName name).access.mayChange = true := by
  simp [ofName, Address.access, Address.ofPath]

/-- A plain name is the address of the file that has it, or of a new one. -/
theorem Path.IsPlain.run_ofAddress {name : String} (h : IsPlain name) {w : Workspace}
    {files : Files} (hwork : w.files.HasWorkingFolder)
    (hfiles : w.files.withFileAt? (some (.text "")) (FileTree.workingPlace ++ [name]) =
      some files) :
    (Connection.ofAddress name).run w = (.ok (.ofName name), { w with files }) := by
  have hlink (target : String) :
      w.files.kindAt? (FileTree.workingPlace ++ [name]) ≠ some (.link target) := by
    rcases FileTree.withFileAt?_eq_some hfiles with ⟨⟨content, hat⟩, -⟩ | ⟨_, -, hnone, -⟩
    · simp [FileTree.kindAt?, hat, FileTree.kind]
    · simp [FileTree.kindAt?, hnone]
  have hpath : (Address.ofPath name).path = name := rfl
  have hmode : (Address.ofPath name).mode = .make := rfl
  rw [Connection.ofAddress, h.address]
  simp only [h.file, Bool.false_eq_true, if_false]
  unfold Connection.openFile
  rw [Work.run_bind_ok (Work.run_get _)]
  simp only [hpath, h.databasePlace?_eq hwork hlink, hmode, if_true, hfiles]
  rfl

/-- Where there is a file, nothing changes. -/
theorem Path.IsPlain.run_ofAddress_file {name : String} (h : IsPlain name) {w : Workspace}
    {content : Content} (hwork : w.files.HasWorkingFolder)
    (hat : w.files.at? (FileTree.workingPlace ++ [name]) = some (.file content)) :
    (Connection.ofAddress name).run w = (.ok (.ofName name), w) := by
  have hsame : w.files.withFileAt? (some (.text "")) (FileTree.workingPlace ++ [name]) =
      some w.files := by
    simp only [FileTree.withFileAt?, hat]
  exact h.run_ofAddress hwork hsame

/-- Without side files the connection to a plain name serves the database in the file. -/
theorem Path.IsPlain.serves {name : String} (h : IsPlain name) {w : Workspace} {content : Content}
    {db : Database} (hwork : w.files.HasWorkingFolder)
    (hat : w.files.at? (FileTree.workingPlace ++ [name]) = some (.file content))
    (hdb : content.database? = some db)
    (hside : ∀ side : SideFile, side ≠ .index →
      w.files.at? (FileTree.workingPlace ++ [side.name name]) = none) :
    (Connection.ofName name).Serves w db where
  mayChange := Connection.mayChange_ofName name
  database := (Connection.database?_of_file rfl hat).trans hdb
  free := by
    rintro place hseat
    obtain rfl := Seat.file.inj hseat
    exact ⟨h.hasFree hwork (hside .journal nofun), h.hasFree hwork (hside .log nofun)⟩

end MetadataCatalog
