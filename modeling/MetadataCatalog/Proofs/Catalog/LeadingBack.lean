import MetadataCatalog.Proofs.Catalog.Ingesting
import MetadataCatalog.Proofs.Catalog.NewFiles

/-!
# Addresses lead back

When an ingest is done, the addresses of the collection and of the tables lead to where the
databases are (`Ingestion.leadsBack`). It takes that both paths went through folders that were there
before, and that nothing stood beside the two files under the names of their side files
(`WellPlaced`). Then the ingest makes the two files, if they are not there, and nothing else
(`Ingestion.gainsFiles`). So the two addresses lead to the same places again, and what is opened
there is shared as it was (`Connection.ofAddress_again`).
-/

namespace MetadataCatalog

namespace Connection

variable {c : Connection} {w w' : Workspace} {old new : Database}

/-! ## §1 New files -/

/-- A change of a database without side files brings about nothing and takes nothing away. -/
theorem Changes.kindAt?_eq (h : c.Changes old new w w')
    (hclear : ∀ place, c.seat = .file place →
      FileTree.IsDotless place ∧ w.files.IsClear place) (other : List String) :
    w'.files.kindAt? other = w.files.kindAt? other := by
  cases hseat : c.seat with
  | spare index =>
    obtain ⟨-, ⟨⟨place, hfile⟩, -⟩ | ⟨-, hsame⟩⟩ := h.spares_eq
    · cases hseat.symm.trans hfile
    · rw [hsame]
  | file place =>
    obtain ⟨hplace, hclear⟩ := hclear place hseat
    obtain ⟨content, hat, -⟩ := exists_content_of_database? hseat h.database_old
    have habove := FileTree.folderAt_dropLast hplace.ne_nil hat
    obtain ⟨w₁, hread, hrest⟩ := h
    obtain ⟨files, hfiles, rfl, -⟩ := run_read_eq_ok_iff.mp hread
    obtain rfl : files = w.files := by
      cases halone : c.access.alone with
      | true =>
        rw [settleFiles?_alone halone] at hfiles
        exact (Option.some.inj hfiles).symm
      | false =>
        rw [settleFiles?_file hseat halone] at hfiles
        exact FileTree.settle?_of_isClear hplace habove hclear hfiles
    rcases hrest with ⟨-, rfl⟩ | hwrite
    · rfl
    · obtain ⟨-, files, hfiles, rfl⟩ := (run_write_file hseat).mp hwrite
      exact FileTree.kindAt?_writeDatabase? hat hclear hfiles other

section Gains

variable {files : Files} {new : List String → Prop} {a : Address}

/-- A change of a database without side files makes no new files. -/
theorem Changes.gainsFiles {db db' : Database} (h : c.Changes db db' w w')
    (hgains : files.GainsFiles new w.files)
    (hclear : ∀ place, c.seat = .file place → FileTree.IsDotless place ∧ files.IsClear place ∧
      ∀ side : SideFile, ¬ new (side.place place)) : w.files.GainsFiles new w'.files := by
  refine .of_kindAt? (h.kindAt?_eq fun place hseat => ?_)
  obtain ⟨hplace, hnone, hnew⟩ := hclear place hseat
  exact ⟨hplace, hnone.of_gainsFiles hgains hnew⟩

/-- An opening makes a new file only at the place that its path leads to. -/
theorem Opened.gainsFiles (h : Opened a w c w') (hgains : files.GainsFiles new w.files)
    (hwork : files.HasWorkingFolder) (hway : a.isSpare = false → files.placeOf a.path ≠ .nowhere)
    (hnew : a.isSpare = false → new (files.placeOf a.path).full) :
    w.files.GainsFiles new w'.files ∧
      ∀ place, c.seat = .file place →
        FileTree.IsDotless place ∧ place = (files.placeOf a.path).full := by
  have htop : w.files.FolderAt [] := (hgains.folderAt hwork).above List.nil_prefix
  cases h with
  | spare index hspare hseat _ _ hfiles =>
    refine ⟨.of_kindAt? fun _ => by rw [hfiles], fun place hplace => ?_⟩
    cases hseat.symm.trans hplace
  | file place hfile hseat halone hplace hfiles hspares =>
    have hopened := Opened.file place hfile hseat halone hplace hfiles hspares
    have hdotless := hopened.isDotless hseat htop
    obtain ⟨rfl, -⟩ :=
      FileTree.databasePlace?_of_gainsFiles hgains hgains hwork (hway hfile) hplace
    refine ⟨(FileTree.gainsFiles_withFileAt? hdotless.ne_nil hfiles).mono ?_, ?_⟩
    · rintro _ rfl
      exact hnew hfile
    · intro place' hplace'
      obtain rfl := Seat.file.inj (hseat.symm.trans hplace')
      exact ⟨hdotless, rfl⟩

end Gains

/-! ## §2 Opening again -/

/-- Two workspaces share the same connections and have equally many spare databases. -/
structure SharesAlike (w v : Workspace) : Prop where
  shared : v.shared = w.shared
  spares : v.spares.length = w.spares.length

section Again

variable {v : Workspace} {a : Address}

/-- A change of a database shares nothing and opens nothing. -/
theorem Changes.sharesAlike (h : c.Changes old new w w') (halike : SharesAlike w v) :
    SharesAlike w' v := by
  obtain ⟨hshared, hspares⟩ := h.spares_eq
  refine ⟨halike.shared.trans hshared.symm, halike.spares.trans ?_⟩
  rcases hspares with ⟨-, hsame⟩ | ⟨⟨index, -, hset⟩, -⟩
  · rw [hsame]
  · rw [hset, List.length_set]

/-- Where the same connections are shared, a name stands for the same one. -/
theorem share_again {name : SharedName} {new : Connection}
    (h : (share name new).run w = (.ok c, w')) (halike : SharesAlike w v) :
    ∃ v', (share name new).run v = (.ok c, v') ∧ v'.files = v.files ∧ SharesAlike w' v' := by
  unfold share at h ⊢
  rw [Work.run_bind_ok (Work.run_get _)] at h ⊢
  rw [halike.shared]
  cases hlookup : w.shared.lookup name with
  | some found =>
    rw [hlookup] at h
    cases h
    exact ⟨v, rfl, rfl, halike⟩
  | none =>
    rw [hlookup] at h
    cases h
    exact ⟨_, rfl, rfl, rfl, halike.spares⟩

theorem openSpare_again (h : (openSpare a).run w = (.ok c, w')) (halike : SharesAlike w v) :
    ∃ v', (openSpare a).run v = (.ok c, v') ∧ v'.files = v.files ∧ SharesAlike w' v' := by
  have hmore : SharesAlike { w with spares := w.spares ++ [Database.empty] }
      { v with spares := v.spares ++ [Database.empty] } :=
    ⟨halike.shared, by simp [halike.spares]⟩
  unfold openSpare at h ⊢
  rw [Work.run_bind_ok (Work.run_get _)] at h ⊢
  rw [halike.spares]
  obtain ⟨_, w₁, hset, hrest⟩ := Work.exists_of_run_bind h
  cases hset
  cases hshared : a.isSharedSpare with
  | true =>
    rw [hshared, if_pos rfl] at hrest
    obtain ⟨v', hshare, hfiles, halike'⟩ := share_again hrest hmore
    exact ⟨v', (Work.run_bind_ok (Work.run_set _ _) _).trans hshare, hfiles, halike'⟩
  | false =>
    rw [hshared, if_neg Bool.false_ne_true] at hrest
    cases hrest
    exact ⟨_, Work.run_bind_ok (Work.run_set _ _) _, rfl, hmore⟩

/-- A path leads to the same place in another workspace, where a file is by now, and other paths
lead somewhere if they did. -/
structure LeadsTo (a : Address) (w v : Workspace) (place : List String) : Prop where
  before : w.files.databasePlace? a.path = some place
  after : v.files.databasePlace? a.path = some place
  isFile : ∃ content, v.files.at? place = some (.file content)
  model : ∀ path, w.files.hasPath path = true → v.files.hasPath path = true

/-- The way to a file that has been opened is the same where only files are new. -/
theorem Opened.leadsTo {files : Files} {new : List String → Prop} (h : Opened a w c w')
    (hfile : a.isSpare = false) (hwork : files.HasWorkingFolder)
    (hway : files.placeOf a.path ≠ .nowhere) (hgains : files.GainsFiles new w.files)
    (hmore : w.files.GainsFiles new v.files)
    (hthere : ∀ place, c.seat = .file place →
      ∃ content, v.files.at? place = some (.file content)) : ∃ place, LeadsTo a w v place := by
  cases h with
  | spare index hspare => cases hspare.symm.trans hfile
  | file place _ hseat _ hplace _ _ =>
    obtain ⟨-, hagain⟩ :=
      FileTree.databasePlace?_of_gainsFiles hgains (hgains.trans hmore) hwork hway hplace
    exact ⟨place, hplace, hagain, hthere place hseat, fun _ => hmore.hasPath⟩

theorem openFile_again {place : List String} (h : (openFile a).run w = (.ok c, w'))
    (halike : SharesAlike w v) (hleads : LeadsTo a w v place) :
    ∃ v', (openFile a).run v = (.ok c, v') ∧ v'.files = v.files ∧ SharesAlike w' v' := by
  obtain ⟨content, hat⟩ := hleads.isFile
  have hsame : ∀ new, v.files.withFileAt? new place = some v.files := fun new => by
    simp only [FileTree.withFileAt?, hat]
  unfold openFile at h ⊢
  rw [Work.run_bind_ok (Work.run_get _)] at h ⊢
  simp only [hleads.before] at h
  simp only [hleads.after, hsame]
  cases hnew : w.files.withFileAt? (if a.mode = .make then some (.text "") else none) place with
  | none =>
    rw [hnew] at h
    cases h
  | some files =>
    simp only [hnew] at h
    split at h
    · obtain ⟨_, w₁, hthrow, -⟩ := Work.exists_of_run_bind h
      cases hthrow
    · next hmodel =>
      have hmodel' : ¬ (!(a.model.map v.files.hasPath).getD true) = true := by
        cases hpath : a.model with
        | none => simp
        | some path =>
          simp only [hpath, Option.map_some, Option.getD_some] at hmodel ⊢
          simpa using hleads.model path (by simpa using hmodel)
      rw [if_neg hmodel']
      obtain ⟨_, w₁, hset, hrest⟩ := Work.exists_of_run_bind h
      cases hset
      have halike' : SharesAlike { w with files } v := ⟨halike.shared, halike.spares⟩
      cases hshared : a.shared with
      | true =>
        rw [hshared, if_pos rfl] at hrest
        obtain ⟨v', hshare, hfiles, hend⟩ := share_again hrest halike'
        exact ⟨v', (Work.run_bind_ok (Work.run_set _ _) _).trans hshare, hfiles, hend⟩
      | false =>
        rw [hshared, if_neg Bool.false_ne_true] at hrest
        cases hrest
        exact ⟨v, Work.run_bind_ok (Work.run_set _ _) _, rfl, halike'⟩

/-- **Opened again** where the same connections are shared, an address leads to the same
database. -/
theorem ofAddress_again {text : String} (ha : Address.ofText? text = some a)
    (h : (ofAddress text).run w = (.ok c, w')) (halike : SharesAlike w v)
    (hleads : a.isSpare = false → ∃ place, LeadsTo a w v place) :
    ∃ v', (ofAddress text).run v = (.ok c, v') ∧ v'.files = v.files ∧ SharesAlike w' v' := by
  unfold ofAddress at h ⊢
  simp only [ha] at h ⊢
  cases hspare : a.isSpare with
  | true =>
    rw [hspare, if_pos rfl] at h
    rw [if_pos rfl]
    exact openSpare_again h halike
  | false =>
    rw [hspare, if_neg Bool.false_ne_true] at h
    rw [if_neg Bool.false_ne_true]
    obtain ⟨place, hplace⟩ := hleads hspare
    exact openFile_again h halike hplace

end Again

end Connection

/-! ## §3 After an ingest -/

/-- An address leads through folders to a file or to a free name, and nothing has the name of a side
file there. -/
def Address.IsClearIn (a : Address) (files : Files) : Prop :=
  files.placeOf a.path ≠ .nowhere ∧ files.IsClear (files.placeOf a.path).full

/-- Two addresses are clear, as far as they lead to files, and neither file is a side file of the
other. -/
structure WellPlaced (files : Files) (a a' : Address) : Prop where
  working : files.HasWorkingFolder
  store : a.isSpare = false → a.IsClearIn files
  tables : a'.isSpare = false → a'.IsClearIn files
  apart : a.isSpare = false → a'.isSpare = false → ∀ side : SideFile,
    (files.placeOf a.path).full ≠ side.place (files.placeOf a'.path).full ∧
      (files.placeOf a'.path).full ≠ side.place (files.placeOf a.path).full

/-- In other files, two addresses lead to where the databases were that the parameters opened, and
no new file is made. -/
def LeadsBack (p : Params) (files later : Files) (path tablesPath : String) : Prop :=
  ∀ store w tables w', (Store.ofParams p).run (.ofFiles files) = (.ok store, w) →
    (Connection.tablesOfParams p).run w = (.ok tables, w') →
      ∃ v v', (Connection.ofAddress path).run (.ofFiles later) = (.ok store.connection, v) ∧
        (Connection.ofAddress tablesPath).run v = (.ok tables, v') ∧
          v.files = later ∧ v'.files = later

namespace WellPlaced

variable {files : Files} {a a' : Address}

/-- The places where an ingest makes files. -/
def MayBeNew (files : Files) (a a' : Address) (place : List String) : Prop :=
  a.isSpare = false ∧ place = (files.placeOf a.path).full ∨
    a'.isSpare = false ∧ place = (files.placeOf a'.path).full

theorem not_mayBeNew_store (h : WellPlaced files a a') (ha : a.isSpare = false) (side : SideFile) :
    ¬ MayBeNew files a a' (side.place (files.placeOf a.path).full) := by
  rintro (⟨-, hself⟩ | ⟨ha', hother⟩)
  · exact SideFile.place_ne_self side _ hself
  · exact (h.apart ha ha' side).2 hother.symm

theorem not_mayBeNew_tables (h : WellPlaced files a a') (ha' : a'.isSpare = false)
    (side : SideFile) : ¬ MayBeNew files a a' (side.place (files.placeOf a'.path).full) := by
  rintro (⟨ha, hother⟩ | ⟨-, hself⟩)
  · exact (h.apart ha ha' side).1 hother.symm
  · exact SideFile.place_ne_self side _ hself

end WellPlaced

namespace Ingestion

variable {p : Params} {files : Files} (s : Ingestion p (.ofFiles files)) {path tablesPath : String}
  {a a' : Address} (hpath : p.storePath? = some path) (htables : p.get .filesdb = .ok tablesPath)
  (ha : Address.ofText? path = some a) (ha' : Address.ofText? tablesPath = some a')
  (h : WellPlaced files a a')

include hpath htables ha ha' h

/-- An ingest makes the files of the two databases, if they are not there, and nothing else. -/
theorem gainsFiles :
    files.GainsFiles (WellPlaced.MayBeNew files a a') s.storeOpen.files ∧
      s.storeOpen.files.GainsFiles (WellPlaced.MayBeNew files a a') s.done.files ∧
      ∀ place, s.tables.seat = .file place →
        ∃ content, s.done.files.at? place = some (.file content) := by
  obtain ⟨b, w, _, _, hb, hopened, hmade, -⟩ := s.store_opened hpath
  obtain rfl := Option.some.inj (ha.symm.trans hb)
  obtain ⟨b', w', _, new, hb', hopened', hmade', hregistered, -, -, hkeeps⟩ :=
    s.tables_opened hpath htables
  obtain rfl := Option.some.inj (ha'.symm.trans hb')
  obtain ⟨_, _, -, hadded⟩ := s.record_added
  have hstart : files.GainsFiles (WellPlaced.MayBeNew files a a') (Workspace.ofFiles files).files :=
    .of_kindAt? fun _ => rfl
  -- the collection
  obtain ⟨hopens, hseat⟩ := hopened.gainsFiles hstart h.working (fun hs => (h.store hs).1)
    fun hs => Or.inl ⟨hs, rfl⟩
  have hclear : ∀ place, s.store.connection.seat = .file place → FileTree.IsDotless place ∧
      files.IsClear place ∧ ∀ side : SideFile,
        ¬ WellPlaced.MayBeNew files a a' (side.place place) := by
    intro place hplace
    have hspare := hopened.isSpare_iff.mpr ⟨place, hplace⟩
    obtain ⟨hdotless, rfl⟩ := hseat place hplace
    exact ⟨hdotless, (h.store hspare).2, h.not_mayBeNew_store hspare⟩
  have hstore := hopens.trans (hmade.gainsFiles hopens hclear)
  -- the tables
  obtain ⟨hopens', hseat'⟩ := hopened'.gainsFiles hstore h.working (fun hs => (h.tables hs).1)
    fun hs => Or.inr ⟨hs, rfl⟩
  have hclear' : ∀ place, s.tables.seat = .file place → FileTree.IsDotless place ∧
      files.IsClear place ∧ ∀ side : SideFile,
        ¬ WellPlaced.MayBeNew files a a' (side.place place) := by
    intro place hplace
    have hspare := hopened'.isSpare_iff.mpr ⟨place, hplace⟩
    obtain ⟨hdotless, rfl⟩ := hseat' place hplace
    exact ⟨hdotless, (h.tables hspare).2, h.not_mayBeNew_tables hspare⟩
  have hmakes := hopens'.trans (hmade'.gainsFiles (hstore.trans hopens') hclear')
  have hregisters := hmakes.trans (hregistered.gainsFiles (hstore.trans hmakes) hclear')
  have hadds := hadded.gainsFiles (hstore.trans hregisters) hclear
  refine ⟨hstore, hregisters.trans hadds, fun place hplace => ?_⟩
  -- the file of the tables is still there when the record is added
  have hnew : new ≠ .empty := by
    rintro rfl
    cases hkeeps.catalog
  have hat := (Connection.database?_file_iff hplace hnew).mp hregistered.database_new
  refine FileTree.exists_file_of_kindAt? (hadds.kindAt?_of_some ?_)
  rw [FileTree.kindAt?, hat]
  rfl

/-- **When an ingest is done** the two addresses lead back. -/
theorem leadsBack : LeadsBack p files s.done.files path tablesPath := by
  obtain ⟨hstore, hdone, hthere⟩ := s.gainsFiles hpath htables ha ha' h
  intro store w tables w' hs ht
  cases s.store_ok.symm.trans hs
  cases s.tables_ok.symm.trans ht
  have hstart : files.GainsFiles (WellPlaced.MayBeNew files a a') (Workspace.ofFiles files).files :=
    .of_kindAt? fun _ => rfl
  -- first the collection
  obtain ⟨-, -, w₁, hopen, old, new, -, hchanges⟩ := Store.exists_of_ofParams hpath s.store_ok
  obtain ⟨b, hb, hopened, hshared⟩ :=
    Connection.opened_ofAddress (Workspace.wellShared_ofFiles files) hopen
  obtain rfl := Option.some.inj (ha.symm.trans hb)
  have hleads : a.isSpare = false →
      ∃ place, Connection.LeadsTo a (.ofFiles files) (.ofFiles s.done.files) place := by
    intro hspare
    refine hopened.leadsTo hspare h.working (h.store hspare).1 hstart (hstore.trans hdone) ?_
    intro place hseat
    obtain ⟨-, _, _, -, -, hat, -, -⟩ := s.record_written hpath hseat
    exact ⟨_, hat⟩
  have hsame : Connection.SharesAlike (.ofFiles files) (.ofFiles s.done.files) := ⟨rfl, rfl⟩
  obtain ⟨v, hopen', hfiles, halike⟩ := Connection.ofAddress_again ha hopen hsame hleads
  -- then the tables
  obtain ⟨w₂, hopenTables, -⟩ := Connection.exists_of_tablesOfParams htables s.tables_ok
  obtain ⟨b', hb', hopened', -⟩ :=
    Connection.opened_ofAddress (hchanges.wellShared hshared) hopenTables
  obtain rfl := Option.some.inj (ha'.symm.trans hb')
  have hleads' : a'.isSpare = false → ∃ place, Connection.LeadsTo a' s.storeOpen v place := by
    intro hspare
    refine hopened'.leadsTo hspare h.working (h.tables hspare).1 hstore (hfiles ▸ hdone) ?_
    intro place hseat
    rw [hfiles]
    exact hthere place hseat
  obtain ⟨v', hopenTables', hfiles', -⟩ :=
    Connection.ofAddress_again ha' hopenTables (hchanges.sharesAlike halike) hleads'
  exact ⟨v, v', hopen', hopenTables', hfiles, hfiles'.trans hfiles⟩

end Ingestion

end MetadataCatalog
