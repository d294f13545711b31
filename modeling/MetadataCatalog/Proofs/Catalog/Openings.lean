import MetadataCatalog.Proofs.Catalog.Changes

/-!
# Openings

An address leads to a spare database, which is a new one, or to the file at a place in the tree
(`Opened`). Which of the two is a matter of the address alone (`Address.namesFile`). What an opening
makes is empty, so nothing new is found after it (`Opened.nothingNew`).

Connections are shared under names. A shared connection leads to where its name says
(`Workspace.WellShared`), so it makes no difference for the place of a database whether it is opened
or shared.
-/

namespace MetadataCatalog

/-- Whether an address leads to a file, and not to a spare database. -/
def Address.namesFile (text : String) : Bool :=
  ((ofText? text).map (!·.isSpare)).getD false

theorem Address.namesFile_iff {text : String} {a : Address} (h : ofText? text = some a) :
    namesFile text = true ↔ a.isSpare = false := by
  rw [namesFile, h]
  simp

/-- A database in a file whose side files do not matter may not be changed. -/
theorem Address.mayChange_of_alone {a : Address} (hfile : a.isSpare = false)
    (halone : a.access.alone = true) : a.access.mayChange = false := by
  have hfixed : a.fixed = true := by simpa [access, hfile] using halone
  have hfileless : a.isFileless = false := (Bool.or_eq_false_iff.mp hfile).1
  simp [access, hfixed, hfileless]

/-! ## §1 Places -/

namespace FileTree

/-- On the way to a database dots are left out. -/
theorem dotless_of_canonical? {α : Type} {tree : FileTree α} {links : Nat}
    {start steps place : List String} (hstart : ∀ name ∈ start, name ≠ "." ∧ name ≠ "..")
    (h : tree.canonical? links start steps = some place) :
    ∀ name ∈ place, name ≠ "." ∧ name ≠ ".." := by
  fun_induction canonical? tree links start steps with
  | case1 =>
    cases h
    exact hstart
  | case2 _ _ _ ih => exact ih hstart h
  | case3 _ _ _ _ ih => exact ih (fun name hname => hstart name (List.dropLast_subset _ hname)) h
  | case8 _ _ _ _ _ _ _ _ _ _ _ _ ih =>
    refine ih (fun name hname => ?_) h
    split at hname
    · cases hname
    · exact hstart name hname
  | case9 _ _ step _ hdot hdots _ _ _ ih =>
    refine ih (fun name hname => ?_) h
    rcases List.mem_append.mp hname with hbefore | hlast
    · exact hstart name hbefore
    · rw [List.mem_singleton.mp hlast]
      exact ⟨hdot, hdots⟩
  | _ => cases h

/-- The place of a database stands under names without dots. -/
theorem dotless_of_databasePlace? {α : Type} {tree : FileTree α} {path : String}
    {place : List String} (h : tree.databasePlace? path = some place) :
    ∀ name ∈ place, name ≠ "." ∧ name ≠ ".." := by
  refine dotless_of_canonical? (fun name hname => ?_) (Option.filter_eq_some_iff.mp h).1
  unfold startOf at hname
  split at hname
  · cases hname
  · simp only [workingPlace, List.mem_cons, List.not_mem_nil, or_false] at hname
    rcases hname with rfl | rfl <;> decide

/-- A file is there already, or a new one is made in a folder. -/
theorem withFileAt?_eq_some {α : Type} {tree tree' : FileTree α} {new : Option α}
    {place : List String} (h : tree.withFileAt? new place = some tree') :
    ((∃ content, tree.at? place = some (.file content)) ∧ tree' = tree) ∨
      ∃ content, new = some content ∧ tree.at? place = none ∧ tree.FolderAt place.dropLast ∧
        tree' = tree.put place (.file content) := by
  unfold withFileAt? at h
  split at h
  · next content hat =>
    cases h
    exact Or.inl ⟨⟨content, hat⟩, rfl⟩
  · next content hat =>
    split at h
    · next hfolder =>
      cases h
      refine Or.inr ⟨content, rfl, hat, ?_, rfl⟩
      rcases habove : tree.at? place.dropLast with _ | (content' | target | entries)
      · simp [habove] at hfolder
      · simp [habove, isFolder] at hfolder
      · simp [habove, isFolder] at hfolder
      · exact ⟨entries, habove⟩
    · cases h
  · cases h

/-- A new file changes nothing elsewhere. -/
theorem at?_put_newFile {α : Type} {tree : FileTree α} {place : List String}
    (hnone : tree.at? place = none) (habove : tree.FolderAt place.dropLast) (content : α) :
    (tree.put place (.file content)).at? place = some (.file content) ∧
      ∀ other ≠ place, ∀ node : FileTree α, node.isFolder = false →
        ((tree.put place (.file content)).at? other = some node ↔ tree.at? other = some node) := by
  rcases List.eq_nil_or_concat place with rfl | ⟨above, name, rfl⟩
  · cases hnone
  · rw [List.concat_eq_append] at hnone habove ⊢
    rw [List.dropLast_concat] at habove
    refine ⟨at?_put_append habove name _ [], fun other hne node hnode => ?_⟩
    refine at?_put_file_iff habove (fun first more => ?_) content hne hnode
    rw [List.append_cons]
    exact at?_eq_none_below hnone (List.prefix_append _ _)

end FileTree

/-! ## §2 Shared connections -/

/-- A connection leads to where a name says. -/
def SharedName.Suits (name : SharedName) (c : Connection) (w : Workspace) : Prop :=
  match name with
  | .file place => c.seat = .file place ∧ (c.access.alone = true → c.access.mayChange = false)
  | .spare _ => ∃ index < w.spares.length, c.seat = .spare index

/-- Shared connections lead to where their names say. -/
def Workspace.WellShared (w : Workspace) : Prop :=
  ∀ name c, w.shared.lookup name = some c → name.Suits c w

theorem Workspace.wellShared_ofFiles (files : Files) : (Workspace.ofFiles files).WellShared :=
  fun _ _ h => nomatch h

namespace Connection

variable {c new : Connection} {w w' : Workspace}

/-- A connection that is shared from now on, or was shared before, leads to where its name says. -/
theorem suits_of_share {name : SharedName} (hshared : w.WellShared) (hnew : name.Suits new w)
    (h : (share name new).run w = (.ok c, w')) :
    name.Suits c w ∧ w'.WellShared ∧ w'.files = w.files ∧ w'.spares = w.spares := by
  unfold share at h
  rw [Work.run_bind_ok (Work.run_get _)] at h
  cases hlookup : w.shared.lookup name with
  | some found =>
    rw [hlookup] at h
    cases h
    exact ⟨hshared name _ hlookup, hshared, rfl, rfl⟩
  | none =>
    rw [hlookup] at h
    cases h
    refine ⟨hnew, fun other c' hother => ?_, rfl, rfl⟩
    rw [List.lookup_append, Option.or_eq_some_iff] at hother
    rcases hother with hold | ⟨-, hlast⟩
    · exact hshared other c' hold
    · -- the only new name is the one that is shared
      rw [List.lookup_cons] at hlast
      split at hlast
      · next heq =>
        cases hlast
        rw [beq_iff_eq.mp heq]
        exact hnew
      · cases hlast

/-- Changes of databases do not disturb what is shared. -/
theorem Changes.wellShared {old next : Database} (h : c.Changes old next w w') (hw : w.WellShared) :
    w'.WellShared := by
  obtain ⟨hshared, hspares⟩ := h.spares_eq
  have hlength : w'.spares.length = w.spares.length := by
    rcases hspares with ⟨-, hsame⟩ | ⟨⟨index, -, hset⟩, -⟩
    · rw [hsame]
    · rw [hset, List.length_set]
  intro name c' hlookup
  have hsuits := hw name c' (hshared ▸ hlookup)
  cases name with
  | file place => exact hsuits
  | spare name =>
    obtain ⟨index, hindex, hseat⟩ := hsuits
    exact ⟨index, hlength ▸ hindex, hseat⟩

/-! ## §3 What an opening leads to -/

/-- A connection has been opened at an address. -/
inductive Opened (a : Address) (w : Workspace) (c : Connection) (w' : Workspace) : Prop where
  /-- There is one more spare database, and the connection leads to a spare one. -/
  | spare (index : Nat) (hspare : a.isSpare = true) (hseat : c.seat = .spare index)
      (hindex : index < w'.spares.length) (hspares : w'.spares = w.spares ++ [Database.empty])
      (hfiles : w'.files = w.files)
  /-- The connection leads to the file at a place, which has been made if it was not there. -/
  | file (place : List String) (hfile : a.isSpare = false) (hseat : c.seat = .file place)
      (halone : c.access.alone = true → c.access.mayChange = false)
      (hplace : w.files.databasePlace? a.path = some place)
      (hfiles : w.files.withFileAt? (if a.mode = .make then some (.text "") else none) place =
        some w'.files)
      (hspares : w'.spares = w.spares)

theorem opened_openSpare {a : Address} (hspare : a.isSpare = true) (hshared : w.WellShared)
    (h : (openSpare a).run w = (.ok c, w')) : Opened a w c w' ∧ w'.WellShared := by
  unfold openSpare at h
  rw [Work.run_bind_ok (Work.run_get _)] at h
  obtain ⟨_, w₁, hset, hrest⟩ := Work.exists_of_run_bind h
  cases hset
  have hlast : w.spares.length < (w.spares ++ [Database.empty]).length := by simp
  have hshared' : Workspace.WellShared { w with spares := w.spares ++ [Database.empty] } := by
    intro name c' hlookup
    have hsuits := hshared name c' hlookup
    cases name with
    | file place => exact hsuits
    | spare name =>
      obtain ⟨index, hindex, hseat⟩ := hsuits
      exact ⟨index, Nat.lt_trans hindex hlast, hseat⟩
  split at hrest
  · have hnew : (SharedName.spare a.path).Suits ⟨.spare w.spares.length, a.access⟩
        { w with spares := w.spares ++ [Database.empty] } := ⟨_, hlast, rfl⟩
    obtain ⟨⟨index, hindex, hseat⟩, hwell, hfiles, hspares⟩ := suits_of_share hshared' hnew hrest
    exact ⟨.spare index hspare hseat (hspares ▸ hindex) hspares hfiles, hwell⟩
  · cases hrest
    exact ⟨.spare _ hspare rfl hlast rfl rfl, hshared'⟩

theorem opened_openFile {a : Address} (hfile : a.isSpare = false) (hshared : w.WellShared)
    (h : (openFile a).run w = (.ok c, w')) : Opened a w c w' ∧ w'.WellShared := by
  unfold openFile at h
  rw [Work.run_bind_ok (Work.run_get _)] at h
  cases hplace : w.files.databasePlace? a.path with
  | none =>
    rw [hplace] at h
    cases h
  | some place =>
    simp only [hplace] at h
    cases hfiles : w.files.withFileAt? (if a.mode = .make then some (.text "") else none) place with
    | none =>
      rw [hfiles] at h
      cases h
    | some files =>
      simp only [hfiles] at h
      split at h
      · obtain ⟨_, w₁, hthrow, -⟩ := Work.exists_of_run_bind h
        cases hthrow
      · obtain ⟨_, w₁, hset, hrest⟩ := Work.exists_of_run_bind h
        cases hset
        have hshared' : Workspace.WellShared { w with files } := hshared
        split at hrest
        · have hnew : (SharedName.file place).Suits ⟨.file place, a.access⟩ { w with files } :=
            ⟨rfl, Address.mayChange_of_alone hfile⟩
          obtain ⟨⟨hseat, halone⟩, hwell, hsame, hspares⟩ := suits_of_share hshared' hnew hrest
          exact ⟨.file place hfile hseat halone hplace (hsame ▸ hfiles) hspares, hwell⟩
        · cases hrest
          have hopened : Opened a w ⟨.file place, a.access⟩ { w with files } :=
            .file place hfile rfl (Address.mayChange_of_alone hfile) hplace hfiles rfl
          exact ⟨hopened, hshared⟩

/-- **An opening** leads to where its address says. -/
theorem opened_ofAddress {text : String} (hshared : w.WellShared)
    (h : (ofAddress text).run w = (.ok c, w')) :
    ∃ a, Address.ofText? text = some a ∧ Opened a w c w' ∧ w'.WellShared := by
  unfold ofAddress at h
  cases ha : Address.ofText? text with
  | none =>
    rw [ha] at h
    cases h
  | some a =>
    simp only [ha] at h
    cases hspare : a.isSpare with
    | true =>
      rw [hspare, if_pos rfl] at h
      exact ⟨a, rfl, opened_openSpare hspare hshared h⟩
    | false =>
      rw [hspare, if_neg Bool.false_ne_true] at h
      exact ⟨a, rfl, opened_openFile hspare hshared h⟩

namespace Opened

variable {a : Address} (h : Opened a w c w')

include h

/-- Nothing new is found after an opening. -/
theorem nothingNew : NothingNew w w' := by
  intro other db hne hdb
  cases h with
  | spare index hspare hseat hindex hspares hfiles =>
    cases hother : other.seat with
    | file place =>
      rw [database?_file_iff hother hne] at hdb ⊢
      rwa [← hfiles]
    | spare index' =>
      rw [database?_spare hother] at hdb ⊢
      rw [hspares] at hdb
      by_cases hold : index' < w.spares.length
      · rwa [List.getElem?_append_left hold] at hdb
      · -- only the new one is further on, and it is empty
        rw [List.getElem?_append_right (Nat.le_of_not_lt hold)] at hdb
        have hmem := List.mem_of_getElem? hdb
        exact absurd (List.mem_singleton.mp hmem) hne
  | file place hfile hseat halone hplace hfiles hspares =>
    cases hother : other.seat with
    | spare index =>
      rw [database?_spare hother] at hdb ⊢
      rwa [← hspares]
    | file place' =>
      rw [database?_file_iff hother hne] at hdb ⊢
      rcases FileTree.withFileAt?_eq_some hfiles with
        ⟨-, hsame⟩ | ⟨content, hnew, hnone, habove, hput⟩
      · rwa [← hsame]
      · obtain ⟨hself, hothers⟩ := FileTree.at?_put_newFile hnone habove content
        rw [hput] at hdb
        by_cases heq : place' = place
        · -- a new file holds no database
          have hempty : content = .text "" := by
            split at hnew
            · exact (Option.some.inj hnew).symm
            · cases hnew
          rw [heq, hself, hempty] at hdb
          cases hdb
        · exact (hothers place' heq _ rfl).mp hdb

/-- The address alone says whether the database is in a file. -/
theorem isSpare_iff : a.isSpare = false ↔ ∃ place, c.seat = .file place := by
  cases h with
  | spare index hspare hseat => simp [hspare, hseat]
  | file place hfile hseat => simp [hfile, hseat]

/-- Below a top that is a folder, a database is in a file under names without dots. -/
theorem isDotless {place : List String} (hseat : c.seat = .file place)
    (htop : w.files.FolderAt []) : FileTree.IsDotless place := by
  cases h with
  | spare index hspare hspareSeat =>
    rw [hspareSeat] at hseat
    cases hseat
  | file place' hfile hfileSeat halone hplace hfiles =>
    obtain rfl := Seat.file.inj (hfileSeat.symm.trans hseat)
    refine ⟨?_, FileTree.dotless_of_databasePlace? hplace⟩
    rintro rfl
    -- the top is a folder, so there is no file
    obtain ⟨entries, hentries⟩ := htop
    rcases FileTree.withFileAt?_eq_some hfiles with ⟨⟨content, hat⟩, -⟩ | ⟨-, -, hnone, -⟩
    · cases hentries.symm.trans hat
    · cases hentries.symm.trans hnone

theorem mayChange_of_alone {place : List String} (hseat : c.seat = .file place)
    (halone : c.access.alone = true) : c.access.mayChange = false := by
  cases h with
  | spare index hspare hspareSeat =>
    rw [hspareSeat] at hseat
    cases hseat
  | file place' hfile hfileSeat hsound => exact hsound halone

end Opened

end Connection

end MetadataCatalog
