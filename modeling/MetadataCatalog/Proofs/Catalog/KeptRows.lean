import MetadataCatalog.Proofs.Catalog.Databases
import MetadataCatalog.Proofs.Catalog.Openings

/-!
# Rows that stay

Opening a database, and making a collection or the five tables in it, adds no row and takes none
away (`Database.SameRows`). On the way side files are tidied up, the file is written anew, and any
of these steps can fail; but a file that is none of those side files holds the rows that it held,
wherever the opening ends (`Store.ofParams_keepsRows`, `Connection.tablesOfParams_keepsRows`).
-/

namespace MetadataCatalog

/-! ## §1 Databases with the same rows -/

namespace Database

variable {db old new : Database}

/-- The five tables have the same rows and counters, and the collections the same records. A
collection or a table that is not there counts as empty. -/
structure SameRows (old new : Database) : Prop where
  tables : new.tables = old.tables
  records : ∀ name, (new.collection? name).getD [] = (old.collection? name).getD []

theorem SameRows.refl (db : Database) : db.SameRows db :=
  ⟨rfl, fun _ => rfl⟩

theorem SameRows.trans {mid : Database} (h : old.SameRows mid) (h' : mid.SameRows new) :
    old.SameRows new :=
  ⟨h'.tables.trans h.tables, fun name => (h'.records name).trans (h.records name)⟩

theorem sameRows_openCatalog (db : Database) : db.SameRows db.openCatalog :=
  ⟨rfl, fun _ => rfl⟩

/-- What is made is an empty collection. -/
theorem sameRows_of_openCollection {name : String} (h : db.openCollection name = .ok new) :
    db.SameRows new := by
  rcases eq_of_openCollection h with rfl | rfl
  · exact SameRows.refl _
  · refine ⟨rfl, fun other => ?_⟩
    unfold collection?
    rw [List.find?_append]
    cases db.collections.find? (·.1 = Text.lowerAscii other) with
    | some entry => rfl
    | none => by_cases hname : Text.lowerAscii name = Text.lowerAscii other <;> simp [hname]

end Database

/-! ## §2 Files -/

namespace FileTree

variable {tree tree' tree'' : Files} {place other : List String}

/-- The database in the file at a place, an empty one if there is none. -/
def databaseAt (tree : Files) (place : List String) : Database :=
  (((tree.at? place).bind content?).bind Content.database?).getD .empty

/-- The database at a place has the rows that it had. -/
def SameRowsAt (place : List String) (tree tree' : Files) : Prop :=
  (tree.databaseAt place).SameRows (tree'.databaseAt place)

theorem SameRowsAt.refl (place : List String) (tree : Files) : SameRowsAt place tree tree :=
  Database.SameRows.refl _

theorem SameRowsAt.trans (h : SameRowsAt place tree tree') (h' : SameRowsAt place tree' tree'') :
    SameRowsAt place tree tree'' :=
  Database.SameRows.trans h h'

/-- There is the same file at a place, or as before there is none. -/
def SameFileAt (place : List String) (tree tree' : Files) : Prop :=
  ∀ content, tree'.at? place = some (.file content) ↔ tree.at? place = some (.file content)

theorem SameFileAt.refl (place : List String) (tree : Files) : SameFileAt place tree tree :=
  fun _ => Iff.rfl

theorem SameFileAt.trans (h : SameFileAt place tree tree') (h' : SameFileAt place tree' tree'') :
    SameFileAt place tree tree'' :=
  fun content => (h' content).trans (h content)

theorem SameFileAt.sameRowsAt (h : SameFileAt place tree tree') : SameRowsAt place tree tree' := by
  have hcontent : (tree'.at? place).bind content? = (tree.at? place).bind content? := by
    have hfile (tree : Files) (content : Content) :
        (tree.at? place).bind content? = some content ↔ tree.at? place = some (.file content) := by
      rcases tree.at? place with _ | (content' | target | entries) <;> simp [content?]
    ext content
    rw [hfile, hfile, h]
  rw [SameRowsAt, databaseAt, databaseAt, hcontent]
  exact Database.SameRows.refl _

/-- Below what is not a folder there is nothing. -/
theorem not_prefix_of_not_folder {side : List String} {content : Content}
    (hside : ∀ entries, tree.at? side ≠ some (.folder entries))
    (hother : tree.at? other = some (.file content)) (hne : other ≠ side) : ¬ side <+: other := by
  rintro ⟨_ | ⟨name, more⟩, rfl⟩
  · exact hne (List.append_nil side)
  · obtain ⟨entries, hfolder⟩ := folderAt_of_at?_append hother
    exact hside entries hfolder

/-- To erase a side file changes no file that is not below it. -/
theorem sameFileAt_erase {side : SideFile}
    (hbelow : ∀ content, tree.at? other = some (.file content) → ¬ side.place place <+: other) :
    SameFileAt other tree (tree.erase (side.place place)) :=
  fun content => (at?_erase_iff rfl).trans (and_iff_right_of_imp (hbelow content))

/-- To look at the journal changes no file but the journal. -/
theorem sameFileAt_settleJournal? {access : Access}
    (h : settleJournal? place access tree = some tree')
    (hne : other ≠ SideFile.journal.place place) : SameFileAt other tree tree' := by
  unfold settleJournal? at h
  obtain ⟨short, -, h⟩ := Option.bind_eq_some_iff.mp h
  split at h
  · cases h
    exact SameFileAt.refl other tree
  · -- only what is not a folder is erased
    split at h
    · cases h
      exact SameFileAt.refl other tree
    · next hnode =>
      split at h <;> cases h
      · exact sameFileAt_erase fun _ hat => not_prefix_of_not_folder hnode hat hne
      · exact SameFileAt.refl other tree
    · next content hfile =>
      split at h
      · cases h
        exact SameFileAt.refl other tree
      · split at h <;> cases h
        exact sameFileAt_erase fun _ hat => not_prefix_of_hasRoom (hasRoom_of_file hfile) hat hne
    · cases h

/-- To look at the log changes no file but the log and its index. -/
theorem sameFileAt_settleLog? {access : Access} (h : settleLog? place access tree = some tree')
    (hlog : other ≠ SideFile.log.place place) (hindex : other ≠ SideFile.index.place place) :
    SameFileAt other tree tree' := by
  unfold settleLog? at h
  obtain ⟨short, -, h⟩ := Option.bind_eq_some_iff.mp h
  split at h
  · cases h
    exact SameFileAt.refl other tree
  · -- a log is erased unless it is a folder, and with it its index if it has content
    split at h
    · cases h
    · next hnode =>
      cases h
      exact sameFileAt_erase fun _ hat => not_prefix_of_not_folder hnode hat hlog
    · next content hfile =>
      cases hroom : tree.hasRoom (SideFile.index.place place) with
      | false =>
        rw [hroom, Bool.not_false, Bool.or_true, if_pos rfl] at h
        cases h
      | true =>
        split at h
        · cases h
        · split at h <;> cases h
          · -- after the log its index goes, for which there is still room
            have hroom' : (tree.erase (SideFile.log.place place)).hasRoom
                (SideFile.index.place place) = true :=
              hasRoom_of_thins (thins_erase tree _ _) hroom
            have hfirst : SameFileAt other tree (tree.erase (SideFile.log.place place)) :=
              sameFileAt_erase fun _ hat => not_prefix_of_hasRoom (hasRoom_of_file hfile) hat hlog
            exact hfirst.trans
              (sameFileAt_erase fun _ hat => not_prefix_of_hasRoom hroom' hat hindex)
          · exact fun content => at?_put_index hfile hroom _ rfl hindex
    · cases h

/-- A database that is written is in its file, and no other file is changed but the journal. -/
theorem of_writeDatabase? {old : Content} {db : Database}
    (hold : tree.at? place = some (.file old)) (h : writeDatabase? place db tree = some tree') :
    tree'.at? place = some (.file (.database db)) ∧
      ∀ other, other ≠ place → other ≠ SideFile.journal.place place →
        SameFileAt other tree tree' := by
  simp only [writeDatabase?] at h
  split at h
  · next hready =>
    cases h
    -- the database is put at its place, and then the journal is erased
    have hroom := (Bool.and_eq_true_iff.mp hready).1
    refine ⟨(at?_erase_side .journal).mpr (at?_put_self hold _), fun other hne hside content => ?_⟩
    have hput (content : Content) :
        (tree.put place (.file (.database db))).at? other = some (.file content) ↔
          tree.at? other = some (.file content) := by
      rw [← labelAt?_eq_some_iff rfl, labelAt?_put_file_of_ne hold hne, labelAt?_eq_some_iff rfl]
    refine (at?_erase_iff rfl).trans (Iff.trans (and_iff_right_of_imp fun hat => ?_) (hput content))
    exact not_prefix_of_hasRoom hroom ((hput content).mp hat) hside
  · cases h

end FileTree

/-! ## §3 Work that may fail -/

namespace Work

variable {σ α β : Type} {R : σ → σ → Prop}

/-- Whatever its outcome, the work leads to a state in relation to the one before. -/
def Leads (R : σ → σ → Prop) (m : Work σ α) : Prop :=
  ∀ s, R s (m.run s).2

namespace Leads

theorem ofExcept (hrefl : ∀ s, R s s) (outcome : Except Fault α) :
    Leads R (ofExcept outcome : Work σ α) :=
  hrefl

/-- What comes second need only lead there after what the first piece can give. -/
theorem bind_of_run {m : Work σ α} {f : α → Work σ β} (hm : Leads R m)
    (htrans : ∀ s s' s'', R s s' → R s' s'' → R s s'')
    (hf : ∀ s a s', m.run s = (.ok a, s') → R s' ((f a).run s').2) : Leads R (m >>= f) := by
  intro s
  have hfirst := hm s
  rcases hrun : m.run s with ⟨outcome, s₁⟩
  rw [hrun] at hfirst
  cases outcome with
  | error fault =>
    rw [run_bind_error hrun]
    exact hfirst
  | ok a =>
    rw [run_bind_ok hrun]
    exact htrans s s₁ _ hfirst (hf s a s₁ hrun)

theorem bind {m : Work σ α} {f : α → Work σ β} (hm : Leads R m)
    (htrans : ∀ s s' s'', R s s' → R s' s'' → R s s'') (hf : ∀ a, Leads R (f a)) :
    Leads R (m >>= f) :=
  hm.bind_of_run htrans fun _ a s' _ => hf a s'

theorem mono {R' : σ → σ → Prop} {m : Work σ α} (h : Leads R m) (hR : ∀ s s', R s s' → R' s s') :
    Leads R' m :=
  fun s => hR s _ (h s)

end Leads

end Work

namespace Workspace

variable {place : List String} {w w' w'' : Workspace}

/-- There is the same file at a place. -/
def SameFileAt (place : List String) (w w' : Workspace) : Prop :=
  FileTree.SameFileAt place w.files w'.files

/-- The database at a place has the same rows. -/
def SameRowsAt (place : List String) (w w' : Workspace) : Prop :=
  FileTree.SameRowsAt place w.files w'.files

theorem SameFileAt.refl (place : List String) (w : Workspace) : SameFileAt place w w :=
  FileTree.SameFileAt.refl place w.files

theorem SameFileAt.trans (h : SameFileAt place w w') (h' : SameFileAt place w' w'') :
    SameFileAt place w w'' :=
  FileTree.SameFileAt.trans h h'

theorem SameFileAt.sameRowsAt (h : SameFileAt place w w') : SameRowsAt place w w' :=
  FileTree.SameFileAt.sameRowsAt h

theorem SameRowsAt.refl (place : List String) (w : Workspace) : SameRowsAt place w w :=
  FileTree.SameRowsAt.refl place w.files

theorem SameRowsAt.trans (h : SameRowsAt place w w') (h' : SameRowsAt place w' w'') :
    SameRowsAt place w w'' :=
  FileTree.SameRowsAt.trans h h'

end Workspace

/-! ## §4 Making -/

namespace Connection

open Workspace (SameFileAt SameRowsAt)

variable {c : Connection} {w w' : Workspace} {place : List String}

/-- A place has the name of a side file of the database behind a connection. -/
def Beside (c : Connection) (place : List String) : Prop :=
  ∃ (own : List String) (side : SideFile), c.seat = .file own ∧ place = side.place own

theorem changeFiles_leads {R : Workspace → Workspace → Prop} (hrefl : ∀ w, R w w)
    {change : Files → Option Files}
    (h : ∀ (w : Workspace) files, change w.files = some files → R w { w with files }) :
    (changeFiles change).Leads R := by
  intro w
  unfold changeFiles
  rw [Work.run_bind_ok (Work.run_get _)]
  cases hfiles : change w.files with
  | none => exact hrefl w
  | some files => exact h w files hfiles

section Beside

variable (hbeside : ¬ c.Beside place)
include hbeside

/-- To tidy up changes no file that is not a side file, even if it fails half way. -/
theorem settle_leads : c.settle.Leads (SameFileAt place) := by
  have hidle : (return () : Action Unit).Leads (SameFileAt place) := SameFileAt.refl place
  unfold settle
  split
  · next own hseat halone =>
    -- the journal comes first, so when the log cannot be looked at it is gone already
    have hside (side : SideFile) : place ≠ side.place own :=
      fun heq => hbeside ⟨own, side, hseat, heq⟩
    have hjournal : (changeFiles (FileTree.settleJournal? own c.access)).Leads (SameFileAt place) :=
      changeFiles_leads (SameFileAt.refl place) fun w files hfiles =>
        FileTree.sameFileAt_settleJournal? hfiles (hside .journal)
    have hlog : (changeFiles (FileTree.settleLog? own c.access)).Leads (SameFileAt place) :=
      changeFiles_leads (SameFileAt.refl place) fun w files hfiles =>
        FileTree.sameFileAt_settleLog? hfiles (hside .log) (hside .index)
    exact hjournal.bind (fun _ _ _ => SameFileAt.trans) fun _ => hlog
  · exact hidle

theorem read_leads : c.read.Leads (SameFileAt place) := by
  have hget : (get : Action Workspace).Leads (SameFileAt place) := SameFileAt.refl place
  unfold read
  refine (settle_leads hbeside).bind (fun _ _ _ => SameFileAt.trans) fun _ => ?_
  refine hget.bind (fun _ _ _ => SameFileAt.trans) fun w => ?_
  split
  · exact SameFileAt.refl place
  · exact SameFileAt.refl place

omit hbeside in
/-- What cannot be written leaves everything as it is. -/
theorem eq_of_write_error {new : Database} {fault : Fault}
    (h : (c.write new).run w = (.error fault, w')) : w' = w := by
  cases hchange : c.access.mayChange with
  | false =>
    unfold write at h
    rw [hchange] at h
    cases h
    rfl
  | true =>
    rw [write_of_mayChange hchange] at h
    cases hseat : c.seat with
    | spare index =>
      rw [hseat] at h
      cases h
    | file own =>
      simp only [hseat, changeFiles] at h
      rw [Work.run_bind_ok (Work.run_get _)] at h
      split at h
      · cases h
      · cases h
        rfl

/-- To write a database with the rows of the one that is there keeps the rows, also if nothing can
be written. -/
theorem sameRowsAt_write {old new : Database} (hold : c.database? w = some old)
    (hrows : old.SameRows new) : SameRowsAt place w ((c.write new).run w).2 := by
  -- either nothing has been written, or all of the database has
  rcases hrun : (c.write new).run w with ⟨_ | _, w'⟩
  · rw [eq_of_write_error hrun]
    exact SameRowsAt.refl place w
  · cases hseat : c.seat with
    | spare index =>
      obtain ⟨-, rfl⟩ := (run_write_spare hseat).mp hrun
      exact SameRowsAt.refl place w
    | file own =>
      obtain ⟨-, files, hfiles, rfl⟩ := (run_write_file hseat).mp hrun
      obtain ⟨content, hat, hdb⟩ := exists_content_of_database? hseat hold
      obtain ⟨hown, hothers⟩ := FileTree.of_writeDatabase? hat hfiles
      by_cases hplace : place = own
      · subst hplace
        show (FileTree.databaseAt w.files place).SameRows (FileTree.databaseAt files place)
        rw [FileTree.databaseAt, FileTree.databaseAt, hat, hown]
        rw [Option.bind_some, Option.bind_some, FileTree.content?, FileTree.content?,
          Option.bind_some, Option.bind_some, hdb]
        exact hrows
      · exact (hothers place hplace fun heq => hbeside ⟨own, .journal, hseat, heq⟩).sameRowsAt

/-- **To make something** that has no rows keeps all rows, wherever it fails. -/
theorem make_leads (make : Database → Except Fault Database)
    (hmake : ∀ {old new : Database}, make old = .ok new → old.SameRows new) :
    (c.make make).Leads (SameRowsAt place) := by
  have hread := (read_leads hbeside).mono fun _ _ => SameFileAt.sameRowsAt
  unfold Connection.make
  refine hread.bind_of_run (fun _ _ _ => SameRowsAt.trans) fun w old w₁ hrun => ?_
  cases hnew : make old with
  | error fault => exact SameRowsAt.refl place w₁
  | ok new =>
    show SameRowsAt place w₁ ((if new ≠ old then c.write new else pure ()).run w₁).2
    split
    · exact sameRowsAt_write hbeside (of_read hrun).2.1 (hmake hnew)
    · exact SameRowsAt.refl place w₁

end Beside

/-! ## §5 Opening -/

theorem exists_run_share (name : SharedName) (new : Connection) (w : Workspace) :
    ∃ c w', (share name new).run w = (.ok c, w') := by
  unfold share
  rw [Work.run_bind_ok (Work.run_get _)]
  cases w.shared.lookup name with
  | some c => exact ⟨c, w, rfl⟩
  | none => exact ⟨new, _, rfl⟩

/-- What cannot be opened leaves everything as it is. -/
theorem eq_of_ofAddress_error {text : String} {fault : Fault}
    (h : (ofAddress text).run w = (.error fault, w')) : w' = w := by
  have hshare (name : SharedName) (new : Connection) (v : Workspace) :
      (share name new).run v ≠ (.error fault, w') := by
    obtain ⟨c, v', hrun⟩ := exists_run_share name new v
    rw [hrun]
    exact fun heq => nomatch (Prod.mk.inj heq).1
  unfold ofAddress at h
  split at h
  · cases h
    rfl
  · split at h
    · -- a spare database is always opened
      unfold openSpare at h
      rw [Work.run_bind_ok (Work.run_get _)] at h
      dsimp only at h
      rw [Work.run_bind_ok (Work.run_set _ _)] at h
      split at h
      · exact absurd h (hshare _ _ _)
      · cases h
    · unfold openFile at h
      rw [Work.run_bind_ok (Work.run_get _)] at h
      split at h
      · cases h
        rfl
      · dsimp only at h
        split at h
        · cases h
          rfl
        · split at h
          · cases h
            rfl
          · rw [Work.run_bind_ok (Work.run_set _ _)] at h
            split at h
            · exact absurd h (hshare _ _ _)
            · cases h

/-- An opening makes a new file, if anything, and that has no rows. -/
theorem Opened.sameRowsAt {a : Address} (h : Opened a w c w') (place : List String) :
    SameRowsAt place w w' := by
  cases h with
  | spare index hspare hseat hindex hspares hfiles =>
    rw [SameRowsAt, hfiles]
    exact FileTree.SameRowsAt.refl place w.files
  | file own hfile hseat halone hplace hfiles hspares =>
    rcases FileTree.withFileAt?_eq_some hfiles with
      ⟨-, hsame⟩ | ⟨content, hnew, hnone, habove, hput⟩
    · rw [SameRowsAt, hsame]
      exact FileTree.SameRowsAt.refl place w.files
    · obtain ⟨hself, hothers⟩ := FileTree.at?_put_newFile hnone habove content
      rw [SameRowsAt, hput]
      by_cases hown : place = own
      · -- where nothing was there is an empty file now, and both count as a database without rows
        subst hown
        have hempty : content = .text "" := by
          split at hnew <;> cases hnew
          rfl
        rw [FileTree.SameRowsAt, FileTree.databaseAt, FileTree.databaseAt, hnone, hself, hempty]
        exact Database.SameRows.refl .empty
      · exact FileTree.SameFileAt.sameRowsAt fun content' => hothers place hown _ rfl

/-- To open a database and to go on with work that keeps the rows keeps them. -/
theorem ofAddress_bind_keepsRows {α : Type} {text : String} {f : Connection → Action α}
    (hshared : w.WellShared)
    (hf : ∀ c w', (ofAddress text).run w = (.ok c, w') → (f c).Leads (SameRowsAt place)) :
    SameRowsAt place w ((ofAddress text >>= f).run w).2 := by
  rcases hrun : (ofAddress text).run w with ⟨fault | c, w₁⟩
  · rw [Work.run_bind_error hrun, eq_of_ofAddress_error hrun]
    exact SameRowsAt.refl place w
  · obtain ⟨a, -, hopened, -⟩ := opened_ofAddress hshared hrun
    rw [Work.run_bind_ok hrun]
    exact (hopened.sameRowsAt place).trans (hf c w₁ hrun w₁)

end Connection

end MetadataCatalog
