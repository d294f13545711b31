import MetadataCatalog.Proofs.Catalog.DatasetNames
import MetadataCatalog.Proofs.Catalog.Openings
import MetadataCatalog.Proofs.Catalog.Parameters
import MetadataCatalog.Proofs.Catalog.Registrations

/-!
# What an ingest leaves

An ingest that reports success is taken apart into its steps (`Ingestion`). When it is done, the
collection holds what it held when it was opened and then the new record
(`Ingestion.store_done`), and the five tables know the dataset with the files that were listed
(`Ingestion.tables_done`), as far as both are kept in files. The files of both are quiet.
-/

namespace MetadataCatalog

/-! ## §1 Opening -/

section Opening

variable {p : Params} {w w' : Workspace}

theorem Store.exists_of_ofConnection {c : Connection} {name : String} {store : Store}
    (h : (ofConnection c name).run w = (.ok store, w')) :
    CollectionName.check name = .ok () ∧ store = ⟨c, name⟩ ∧
      ∃ old new : Database, old.openCollection name = .ok new ∧ c.Changes old new w w' := by
  unfold ofConnection at h
  obtain ⟨_, hcheck, h⟩ := Work.exists_of_run_bind_same rfl h
  obtain ⟨_, w₂, hmake, h⟩ := Work.exists_of_run_bind h
  cases h
  obtain ⟨old, new, hnew, hchanges⟩ := Connection.exists_changes_of_make hmake
  exact ⟨hcheck, rfl, old, new, hnew, hchanges⟩

/-- To open the collection is to open a database and to make the collection in it. -/
theorem Store.exists_of_ofParams {path : String} {store : Store} (hpath : p.storePath? = some path)
    (h : (ofParams p).run w = (.ok store, w')) :
    store.collection = p.collectionName ∧ p.NamesCollection ∧
      ∃ w₁, (Connection.ofAddress path).run w = (.ok store.connection, w₁) ∧
        ∃ old new : Database, old.openCollection p.collectionName = .ok new ∧
          store.connection.Changes old new w₁ w' := by
  rw [ofParams_of_storePath? hpath] at h
  obtain ⟨c, w₁, hopen, h⟩ := Work.exists_of_run_bind h
  obtain ⟨hcheck, rfl, hmade⟩ := exists_of_ofConnection h
  exact ⟨rfl, hcheck, w₁, hopen, hmade⟩

/-- To open the five tables is to open a database and to make the tables in it. -/
theorem Connection.exists_of_tablesOfParams {path : String} {tables : Connection}
    (hpath : p.get .filesdb = .ok path) (h : (tablesOfParams p).run w = (.ok tables, w')) :
    ∃ w₁, (ofAddress path).run w = (.ok tables, w₁) ∧
      ∃ old : Database, tables.Changes old old.openCatalog w₁ w' := by
  unfold tablesOfParams at h
  obtain ⟨found, hfound, h⟩ := Work.exists_of_run_bind_same rfl h
  obtain rfl := Except.ok.inj (hpath.symm.trans hfound)
  obtain ⟨c, w₁, hopen, h⟩ := Work.exists_of_run_bind h
  obtain ⟨_, w₂, hmake, h⟩ := Work.exists_of_run_bind h
  cases h
  obtain ⟨old, new, hnew, hchanges⟩ := exists_changes_of_make hmake
  cases hnew
  exact ⟨w₁, hopen, old, hchanges⟩

end Opening

/-! ## §2 The steps -/

/-- The steps of an ingest that has succeeded: what was read, what was opened, and the workspace
after each step. -/
structure Ingestion (p : Params) (w : Workspace) where
  dataset : Dataset
  text : String
  listed : List String
  store : Store
  tables : Connection
  number : Nat
  recordId : Nat
  storeOpen : Workspace
  tablesOpen : Workspace
  registered : Workspace
  done : Workspace
  dataset_ok : p.dataset = .ok dataset
  text_ok : (p.get .fname).bind w.files.readDocument = .ok text
  listed_ok : (p.get .path).bind w.files.listFiles = .ok listed
  store_ok : (Store.ofParams p).run w = (.ok store, storeOpen)
  tables_ok : (Connection.tablesOfParams p).run storeOpen = (.ok tables, tablesOpen)
  number_ok : (tables.insertDataset dataset listed).run tablesOpen = (.ok number, registered)
  record_ok : (store.insert ⟨text, dataset.text, number⟩).run registered = (.ok recordId, done)

namespace Ingestion

/-- What is reported. -/
def report {p : Params} {w : Workspace} (s : Ingestion p w) : Report where
  dataset := s.dataset.text
  datasetId := s.number
  fileCount := s.listed.length
  recordId := s.recordId

/-- What an ingest reports is what its steps have done. -/
theorem exists_of_run {p : Params} {w w' : Workspace} {report : Report}
    (h : (ingest p).run w = (.ok (some report), w')) :
    ∃ s : Ingestion p w, s.report = report ∧ s.done = w' := by
  unfold ingest at h
  obtain ⟨_, -, h⟩ := Work.exists_of_run_bind_same rfl h
  obtain ⟨document, hdocument, h⟩ := Work.exists_of_run_bind_same rfl h
  obtain ⟨dataset, hdataset, h⟩ := Work.exists_of_run_bind_same rfl h
  obtain ⟨text, htext, h⟩ := Work.exists_of_run_bind_same rfl h
  split at h
  · cases h
  obtain ⟨folder, hfolder, h⟩ := Work.exists_of_run_bind_same rfl h
  obtain ⟨listed, hlisted, h⟩ := Work.exists_of_run_bind_same rfl h
  obtain ⟨store, storeOpen, hstore, h⟩ := Work.exists_of_run_bind h
  obtain ⟨tables, tablesOpen, htables, h⟩ := Work.exists_of_run_bind h
  obtain ⟨reported, _, hingest, h⟩ := Work.exists_of_run_bind h
  obtain ⟨number, registered, hnumber, hingest⟩ := Work.exists_of_run_bind hingest
  obtain ⟨recordId, done, hrecord, hingest⟩ := Work.exists_of_run_bind hingest
  cases hingest
  cases h
  refine ⟨⟨dataset, text, listed, store, tables, number, recordId, storeOpen, tablesOpen,
    registered, w', hdataset, ?_, ?_, hstore, htables, hnumber, hrecord⟩, rfl, rfl⟩
  · rw [hdocument]
    exact htext
  · rw [hfolder]
    exact hlisted

/-- The steps, one after the other, are an ingest. -/
theorem run_ingest {p : Params} {w : Workspace} (s : Ingestion p w)
    (hkeys : p.require ingestKeys = .ok ()) (hblank : Text.isBlankText s.text = false) :
    (ingest p).run w = (.ok (some s.report), s.done) := by
  have hrun : ∀ {α : Type} {outcome : Except Fault α} {a : α}, outcome = .ok a →
      (Action.ofExcept outcome).run w = (.ok a, w) := fun h => h ▸ rfl
  obtain ⟨document, hdocument, htext⟩ := exists_of_bind_eq_ok s.text_ok
  obtain ⟨folder, hfolder, hlisted⟩ := exists_of_bind_eq_ok s.listed_ok
  unfold ingest
  refine (Work.run_bind_ok (hrun hkeys) _).trans ?_
  refine (Work.run_bind_ok (hrun hdocument) _).trans ?_
  refine (Work.run_bind_ok (hrun s.dataset_ok) _).trans ?_
  refine (Work.run_bind_ok (hrun htext) _).trans ?_
  rw [hblank, if_neg Bool.false_ne_true]
  refine (Work.run_bind_ok (hrun hfolder) _).trans ?_
  refine (Work.run_bind_ok (hrun hlisted) _).trans ?_
  refine (Work.run_bind_ok s.store_ok _).trans ?_
  refine (Work.run_bind_ok s.tables_ok _).trans ?_
  refine (Work.run_bind_ok (a := s.report) ?_ _).trans rfl
  exact (Work.run_bind_ok s.number_ok _).trans (Work.run_bind_ok s.record_ok _)

variable {p : Params} {files : Files} (s : Ingestion p (.ofFiles files)) {path tablesPath : String}

/-- The record that is added. -/
def record : CatalogRecord := ⟨s.text, s.dataset.text, s.number⟩

include s in
/-- Where files have been listed, the top is a folder. -/
theorem folderAt_top : files.FolderAt [] := by
  obtain ⟨folder, -, hlisted⟩ := exists_of_bind_eq_ok s.listed_ok
  simp only [FileTree.listFiles, Workspace.ofFiles] at hlisted
  split at hlisted
  · cases hlisted
  · next found hfound =>
    unfold FileTree.below? at hfound
    split at hfound
    · next entries hnode =>
      unfold FileTree.node? at hnode
      split at hnode
      · next place _ => exact FileTree.FolderAt.above ⟨entries, hnode⟩ List.nil_prefix
      · cases hnode
    · cases hfound

/-- First the database of the collection is opened, and the collection is made in it. -/
theorem store_opened (hpath : p.storePath? = some path) :
    ∃ a w old new, Address.ofText? path = some a ∧
      Connection.Opened a (.ofFiles files) s.store.connection w ∧
      s.store.connection.Changes old new w s.storeOpen ∧ s.storeOpen.WellShared := by
  obtain ⟨-, -, w, hopen, old, new, -, hchanges⟩ := Store.exists_of_ofParams hpath s.store_ok
  obtain ⟨a, ha, hopened, hshared⟩ :=
    Connection.opened_ofAddress (Workspace.wellShared_ofFiles files) hopen
  exact ⟨a, w, old, new, ha, hopened, hchanges, hchanges.wellShared hshared⟩

/-- Then the database of the tables is opened, the tables are made in it, and the dataset is
registered. -/
theorem tables_opened (hpath : p.storePath? = some path)
    (htables : p.get .filesdb = .ok tablesPath) :
    ∃ a w old new, Address.ofText? tablesPath = some a ∧
      Connection.Opened a s.storeOpen s.tables w ∧
      s.tables.Changes old old.openCatalog w s.tablesOpen ∧
      s.tables.Changes old.openCatalog new s.tablesOpen s.registered ∧
      new.collections = old.collections ∧
      s.number = old.tables.numberFor s.dataset ∧
      new.Keeps (old.tables.registered s.dataset s.listed) := by
  obtain ⟨-, -, -, -, -, -, -, hshared⟩ := s.store_opened hpath
  obtain ⟨w, hopen, old, hmade⟩ := Connection.exists_of_tablesOfParams htables s.tables_ok
  obtain ⟨a, ha, hopened, -⟩ := Connection.opened_ofAddress hshared hopen
  obtain ⟨found, hnumber, hregistered⟩ := Connection.exists_changes_of_update s.number_ok
  -- the tables that were made are the ones that are found
  obtain rfl : found = old.openCatalog :=
    Option.some.inj (hregistered.database_old.symm.trans hmade.database_new)
  obtain ⟨hnumber, hcollections, hkeeps⟩ := Database.keeps_of_insertDataset hnumber
  exact ⟨a, w, old, _, ha, hopened, hmade, hregistered, hcollections, hnumber, hkeeps⟩

/-- At last the record is added to the collection. -/
theorem record_added :
    ∃ old c, old.collection? s.store.collection = some c ∧
      s.store.connection.Changes old (old.withCollection s.store.collection (c ++ [s.record]))
        s.registered s.done := by
  obtain ⟨old, hinsert, hchanges⟩ := Connection.exists_changes_of_update s.record_ok
  cases hc : old.collection? s.store.collection with
  | none =>
    rw [Database.insertRecord, hc] at hinsert
    cases hinsert
  | some c =>
    rw [Database.insertRecord_of_collection? hc] at hchanges
    exact ⟨old, c, hc, hchanges⟩

/-- The collection that the record is added to is the one that was opened: what has been done for
the tables has not changed it. -/
theorem collection_kept (hpath : p.storePath? = some path)
    (htables : p.get .filesdb = .ok tablesPath) {old : Database} {c : Collection}
    (hdb : s.store.connection.database? s.registered = some old)
    (hc : old.collection? s.store.collection = some c) :
    ∃ before, s.store.connection.database? s.storeOpen = some before ∧
      before.collection? s.store.collection = some c := by
  obtain ⟨a, w, found, new, -, hopened, hmade, hregistered, hcollections, -⟩ :=
    s.tables_opened hpath htables
  have hne : ∀ {db : Database}, db.collection? s.store.collection = some c → db ≠ .empty := by
    rintro db hdb rfl
    cases hdb
  by_cases hseat : s.store.connection.seat = s.tables.seat
  · -- both are kept in one database
    have hsame : ∀ w', s.store.connection.database? w' = s.tables.database? w' := fun w' => by
      rw [Connection.database?, Connection.database?, hseat]
    have hnew : new = old :=
      Option.some.inj (hregistered.database_new.symm.trans ((hsame _).symm.trans hdb))
    have hfound : found.collection? s.store.collection = some c := by
      rw [← hc, ← hnew, Database.collection?, Database.collection?, hcollections]
    refine ⟨found, hopened.nothingNew _ _ (hne hfound) ?_, hfound⟩
    rw [hsame]
    exact hmade.database_old
  · have hbefore := (hmade.onlyThrough.trans hregistered.onlyThrough) _ _ hseat (hne hc) hdb
    exact ⟨old, hopened.nothingNew _ _ (hne hc) hbefore, hc⟩

/-! ## §3 What is left -/

/-- The record is written into the file of the collection, which is quiet then, and the other files
are only tidied up. -/
theorem record_written (hpath : p.storePath? = some path) {place : List String}
    (hseat : s.store.connection.seat = .file place) :
    place ≠ [] ∧ ∃ old c,
      s.registered.files.at? place = some (.file (.database old)) ∧
      old.collection? s.store.collection = some c ∧
      s.done.files.at? place = some (.file (.database
        (old.withCollection s.store.collection (c ++ [s.record])))) ∧
      (∀ access, s.done.files.Quiet place access) ∧
      FileTree.Tidies place s.registered.files s.done.files := by
  obtain ⟨a, w, -, -, -, hopened, -, -⟩ := s.store_opened hpath
  obtain ⟨old, c, hc, hchanges⟩ := s.record_added
  have hplace := hopened.isDotless hseat s.folderAt_top
  have hlonger := Database.collection?_withCollection hc (c ++ [s.record])
  have hold : old ≠ .empty := by
    rintro rfl
    cases hc
  have hnew : old.withCollection s.store.collection (c ++ [s.record]) ≠ .empty := by
    intro heq
    rw [heq] at hlonger
    cases hlonger
  have hnewDb := (Connection.database?_file_iff hseat hnew).mp hchanges.database_new
  have holdDb := (Connection.database?_file_iff hseat hold).mp hchanges.database_old
  obtain ⟨w₁, hread, ⟨hsame, -⟩ | hwrite⟩ := hchanges
  · -- there is one more record, so something is written
    rw [hsame, hc] at hlonger
    simp at hlonger
  · have halone : s.store.connection.access.alone = false := by
      by_contra halone
      have hnot := hopened.mayChange_of_alone hseat (Bool.not_eq_false _ ▸ halone)
      simp [Connection.mayChange_of_write hwrite] at hnot
    obtain ⟨hquiet, htidies⟩ := Connection.quiet_of_write hseat halone hplace hold hread hwrite
    exact ⟨hplace.ne_nil, old, c, holdDb, hc, hnewDb, hquiet, htidies⟩

/-- **The collection** holds what it held when it was opened and then the record. -/
theorem store_done (hpath : p.storePath? = some path) (htables : p.get .filesdb = .ok tablesPath)
    {place : List String} (hseat : s.store.connection.seat = .file place) :
    ∃ before c db, s.store.connection.database? s.storeOpen = some before ∧
      before.collection? s.store.collection = some c ∧
      s.done.files.at? place = some (.file (.database db)) ∧
      db.collection? s.store.collection = some (c ++ [s.record]) ∧
      ∀ access, s.done.files.Quiet place access := by
  obtain ⟨-, old, c, hold, hc, hnew, hquiet, -⟩ := s.record_written hpath hseat
  have hdb : s.store.connection.database? s.registered = some old := by
    rw [Connection.database?_of_file hseat hold]
    rfl
  obtain ⟨before, hbefore, hkept⟩ := s.collection_kept hpath htables hdb hc
  exact ⟨before, c, _, hbefore, hkept, hnew, Database.collection?_withCollection hc _, hquiet⟩

/-- **The five tables** know the dataset with the files that were listed, if their file is still
there. -/
theorem tables_done (hpath : p.storePath? = some path) (htables : p.get .filesdb = .ok tablesPath)
    {place tablesPlace : List String} (hseat : s.store.connection.seat = .file place)
    (htablesSeat : s.tables.seat = .file tablesPlace) {content : Content}
    (hthere : s.done.files.at? tablesPlace = some (.file content)) :
    ∃ db t found, s.done.files.at? tablesPlace = some (.file (.database db)) ∧ db.Keeps t ∧
      t.findFiles? s.dataset = some found ∧ (∀ name ∈ s.listed, name ∈ found) ∧
      (s.tables.access.alone = false → s.done.files.Quiet tablesPlace s.tables.access) := by
  obtain ⟨hne, old, c, hold, hc, hdone, hquiet, htidies⟩ := s.record_written hpath hseat
  obtain ⟨a, w, found, new, -, hopened, hmade, hregistered, -, -, hkeeps⟩ :=
    s.tables_opened hpath htables
  obtain ⟨listed, hfound, hall⟩ :=
    FilesTables.findFiles?_registered found.tables s.dataset s.listed
  have hnew : new ≠ .empty := by
    rintro rfl
    cases hkeeps.catalog
  have hnewAt := (Connection.database?_file_iff htablesSeat hnew).mp hregistered.database_new
  by_cases hsame : tablesPlace = place
  · -- the record was added in the same database, whose tables it leaves alone
    subst hsame
    cases hold.symm.trans hnewAt
    exact ⟨_, _, listed, hdone, hkeeps.withCollection _ _, hfound, hall, fun _ => hquiet _⟩
  · have hkept := htidies.old _ _ hsame hthere
    cases hkept.symm.trans hnewAt
    refine ⟨new, _, listed, hthere, hkeeps, hfound, hall, fun halone => ?_⟩
    -- the tables were opened when the file of the collection was there already
    have htop : s.storeOpen.files.FolderAt [] := by
      have hdb : s.store.connection.database? s.registered = some old := by
        rw [Connection.database?_of_file hseat hold]
        rfl
      obtain ⟨before, hbefore, -⟩ := s.collection_kept hpath htables hdb hc
      obtain ⟨content, hat, -⟩ := Connection.exists_content_of_database? hseat hbefore
      exact (FileTree.folderAt_dropLast hne hat).above List.nil_prefix
    have hdotless := hopened.isDotless htablesSeat htop
    have hmid : found.openCatalog ≠ .empty := fun heq => nomatch congrArg Database.catalog heq
    have hbefore := Connection.quiet_of_changes htablesSeat halone hdotless hmid hmade hregistered
    exact hbefore.of_tidies htidies hne hdotless.ne_nil hsame hold hdone

end Ingestion

end MetadataCatalog
