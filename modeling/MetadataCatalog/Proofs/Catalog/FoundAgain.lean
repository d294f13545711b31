import MetadataCatalog.Proofs.Catalog.Finding
import MetadataCatalog.Proofs.Catalog.LeadingBack
import MetadataCatalog.Proofs.Catalog.PlainNames
import MetadataCatalog.Proofs.Catalog.SingleWords
import MetadataCatalog.Proofs.Storage.Entries

/-!
# Documents found again

What has been ingested is found again by any word that stands alone in it, with the files that were
listed (`found_again`). It takes that the collection is kept in a file, and the tables, too, if
there are files; that the collection has a name that a database goes along with in a search; and
that the addresses lead to the same files again. Whatever is ingested under the empty path, which
an address can name like any other one, is lost: `lost_without_path`.
-/

namespace MetadataCatalog

/-! ## §1 Searching again -/

namespace Connection

variable {c : Connection} {w w' : Workspace} {db : Database}

/-- From a file that is quiet a database is read without changing anything. -/
theorem run_read_of_quiet {place : List String} (hseat : c.seat = .file place)
    (h : w.files.at? place = some (.file (.database db)))
    (hquiet : c.access.alone = false → w.files.Quiet place c.access) :
    c.read.run w = (.ok db, w) := by
  refine run_read_eq_ok_iff.mpr ⟨w.files, ?_, rfl, ?_⟩
  · cases halone : c.access.alone with
    | true => exact settleFiles?_alone halone w.files
    | false =>
      rw [settleFiles?_file hseat halone]
      exact FileTree.settle?_of_quiet h (hquiet halone)
  · rw [database?_of_file hseat h]
    rfl

theorem run_read_spare {index : Nat} (hseat : c.seat = .spare index)
    (h : w.spares[index]? = some db) : c.read.run w = (.ok db, w) := by
  refine run_read_eq_ok_iff.mpr ⟨w.files, settleFiles?_spare hseat w.files, rfl, ?_⟩
  rw [database?_spare hseat, h]

end Connection

section Searching

variable {w : Workspace} {tables : Connection} {db : Database} {t : FilesTables}

/-- The files of a dataset are those that the tables have. -/
theorem run_filesFor_of_keeps (hread : tables.read.run w = (.ok db, w)) (hkeeps : db.Keeps t)
    {d : Dataset} (hd : d.IsProper) :
    (filesFor tables.keeper d.text).run w = (.ok ((t.findFiles? d).getD []), w) := by
  have hname : (Work.ofExcept (Dataset.ofText d.text) : Action Dataset).run w = (.ok d, w) := by
    rw [hd.ofText_text]
    rfl
  have hask : (tables.findFiles d).run w = (.ok (t.findFiles? d), w) := by
    rw [Connection.findFiles, Connection.run_query_of_read hread, hkeeps.findFiles]
  unfold filesFor
  rw [Work.run_bind_ok hname]
  exact Work.run_bind_ok hask _

/-- Every record whose dataset has a proper name becomes a hit. -/
theorem run_hitsOf_of_keeps (hread : tables.read.run w = (.ok db, w)) (hkeeps : db.Keeps t)
    {records : List CatalogRecord}
    (hproper : ∀ r ∈ records, ∃ d : Dataset, d.IsProper ∧ r.dataset = d.text) :
    ∃ hits, (hitsOf (some tables.keeper) records).run w = (.ok hits, w) ∧
      ∀ r ∈ records, ∀ d : Dataset, d.IsProper → r.dataset = d.text →
        ⟨r, some ((t.findFiles? d).getD [])⟩ ∈ hits := by
  induction records with
  | nil => exact ⟨[], rfl, fun r hr => nomatch hr⟩
  | cons record rest ih =>
    obtain ⟨hits, hrest, hall⟩ := ih fun r hr => hproper r (List.mem_cons_of_mem _ hr)
    obtain ⟨d, hd, hname⟩ := hproper record List.mem_cons_self
    have hfiles := run_filesFor_of_keeps hread hkeeps hd
    refine ⟨⟨record, some ((t.findFiles? d).getD [])⟩ :: hits, ?_, fun r hr e he hr' => ?_⟩
    · rw [hname.symm] at hfiles
      simp only [hitsOf]
      rw [Work.run_bind_ok (Work.run_map_ok hfiles some), Work.run_bind_ok hrest]
      rfl
    · rcases List.mem_cons.mp hr with rfl | hmore
      · -- a name is the name of one dataset only
        have hsame : d = e := by
          have htext : d.text = e.text := hname.symm.trans hr'
          exact Except.ok.inj (hd.ofText_text.symm.trans (htext ▸ he.ofText_text))
        rw [hsame]
        exact List.mem_cons_self
      · exact List.mem_cons_of_mem _ (hall r hmore e he hr')

end Searching

/-! ## §2 Opening again -/

section Opening

variable {p : Params} {w w' w'' : Workspace} {c : Connection} {db : Database}
  {path tablesPath : String}

/-- The first spare database that is opened is an empty one. -/
theorem Connection.Opened.first_spare {a : Address} (h : Opened a w c w') (hnone : w.spares = [])
    {index : Nat} (hseat : c.seat = .spare index) : w'.spares[index]? = some .empty := by
  cases h with
  | file place' _ hfile => cases hseat.symm.trans hfile
  | spare index' _ hspare hindex hlast _ =>
    obtain rfl := Seat.spare.inj (hspare.symm.trans hseat)
    rw [hnone, List.nil_append] at hlast
    rw [hlast, List.length_singleton, Nat.lt_one_iff] at hindex
    rw [hlast, hindex]
    rfl

theorem Store.run_ofParams (hpath : p.storePath? = some path)
    (hopen : (Connection.ofAddress path).run w = (.ok c, w')) (hname : p.NamesCollection)
    (hmake : (c.make fun db => db.openCollection p.collectionName).run w' = (.ok (), w'')) :
    (ofParams p).run w = (.ok ⟨c, p.collectionName⟩, w'') := by
  have hcheck : (Action.ofExcept (CollectionName.check p.collectionName)).run w' =
      (.ok (), w') := by
    rw [hname]
    rfl
  rw [ofParams_of_storePath? hpath, Work.run_bind_ok hopen]
  exact (Work.run_bind_ok hcheck _).trans (Work.run_bind_ok hmake _)

theorem Connection.run_tablesOfParams (hpath : p.get .filesdb = .ok tablesPath)
    (hopen : (ofAddress tablesPath).run w = (.ok c, w'))
    (hmake : c.openTables.run w' = (.ok (), w'')) :
    (tablesOfParams p).run w = (.ok c, w'') := by
  have hget : (Action.ofExcept (p.get .filesdb)).run w = (.ok tablesPath, w) := by
    rw [hpath]
    rfl
  rw [tablesOfParams, Work.run_bind_ok hget, Work.run_bind_ok hopen, Work.run_bind_ok hmake]
  rfl

/-- A collection that is there is not made again. -/
theorem Database.openCollection_of_collection? {name : String} {c : Collection}
    (hc : db.collection? name = some c) (hname : CollectionName.service name = .full) :
    db.openCollection name = .ok db := by
  have hused : db.inUse (Text.lowerAscii name) = true := by
    have hhas : db.hasCollection (Text.lowerAscii (Text.lowerAscii name)) = true := by
      rw [hasCollection, collection?, Text.lowerAscii_lowerAscii, Text.lowerAscii_lowerAscii]
      rw [collection?] at hc
      rw [hc]
      rfl
    rw [inUse, hhas]
    rfl
  simp [openCollection, hname, hused]

theorem Params.isSome_value?_of_get {key : ParamKey} {value : String}
    (h : p.get key = .ok value) : (p.value? key).isSome = true := by
  rw [get_eq_ok_iff.mp h, Option.isSome_some]

theorem Params.require_of_isSome {key : ParamKey} (h : (p.value? key).isSome = true) :
    p.require [key] = .ok () := by
  obtain ⟨value, hvalue⟩ := Option.isSome_iff_exists.mp h
  simp [require, requireNamed, hvalue]

theorem Params.require_of_get {key : ParamKey} {value : String} (h : p.get key = .ok value) :
    p.require [key] = .ok () :=
  require_of_isSome (isSome_value?_of_get h)

/-- A search goes through the collection and then asks the tables about what it finds. -/
theorem run_find {store : Store} {word address : String}
    {records : List CatalogRecord} {hits : List Hit} (hdburi : p.get .dburi = .ok address)
    (htables : p.get .filesdb = .ok tablesPath)
    (hstore : (Store.ofParams p).run w = (.ok store, w'))
    (hopen : (Connection.tablesOfParams p).run w' = (.ok c, w''))
    (hsearch : (store.search word).run w'' = (.ok records, w''))
    (hhits : (hitsOf (some c.keeper) records).run w'' = (.ok hits, w'')) :
    (find p word true).run w = (.ok hits, w'') := by
  have hrequire : ∀ {key : ParamKey} {value : String}, p.get key = .ok value →
      (Action.ofExcept (p.require [key])).run w = (.ok (), w) := fun hget => by
    rw [Params.require_of_get hget]
    rfl
  unfold find
  refine (Work.run_bind_ok (hrequire hdburi) _).trans ?_
  refine (Work.run_bind_ok (hrequire htables) _).trans ?_
  refine (Work.run_bind_ok hstore _).trans ?_
  refine (Work.run_bind_ok (Work.run_map_ok hopen some) _).trans ?_
  exact (Work.run_bind_ok hsearch _).trans hhits

end Opening

/-! ## §3 Finding again -/

/-- Every record in the collection that the parameters name has a dataset that is named as it should
be, as every record has that an ingest has added. -/
def HoldsIngested (files : Files) (p : Params) : Prop :=
  ∀ store w db c, (Store.ofParams p).run (.ofFiles files) = (.ok store, w) →
    store.connection.database? w = some db → db.collection? store.collection = some c →
      ∀ r ∈ c, ∃ d : Dataset, d.IsProper ∧ r.dataset = d.text

/-- A search for a word, with files, finds a text under the dataset of a report, and the files that
were listed are among those of the dataset. -/
def FoundAgain (files : Files) (p : Params) (word text : String) (report : Report)
    (listed : List String) : Prop :=
  ∃ hits w, (find p word true).run (.ofFiles files) = (.ok hits, w) ∧
    ∃ hit ∈ hits, hit.record = ⟨text, report.dataset, report.datasetId⟩ ∧
      ∃ found, hit.files = some found ∧ ∀ name ∈ listed, name ∈ found

namespace Ingestion

variable {p : Params} {files : Files} (s : Ingestion p (.ofFiles files)) {path tablesPath : String}

/-- The dataset is named as it should be. -/
theorem dataset_isProper : s.dataset.IsProper := by
  obtain ⟨experiment, -, h⟩ := exists_of_bind_eq_ok s.dataset_ok
  obtain ⟨processing, -, h⟩ := exists_of_bind_eq_ok h
  obtain ⟨tier, -, hparts⟩ := exists_of_bind_eq_ok h
  exact Dataset.isProper_of_ofParts hparts

/-- The database of the collection is in a file if its address says so, and then no spare database
has been opened for it. -/
theorem exists_seat (hpath : p.storePath? = some path) (hfile : Address.namesFile path = true) :
    (∃ place, s.store.connection.seat = .file place) ∧ s.storeOpen.spares = [] := by
  obtain ⟨a, w, old, new, ha, hopened, hchanges, -⟩ := s.store_opened hpath
  obtain ⟨place, hseat⟩ := hopened.isSpare_iff.mp ((Address.namesFile_iff ha).mp hfile)
  refine ⟨⟨place, hseat⟩, ?_⟩
  obtain ⟨-, ⟨-, hspares⟩ | ⟨⟨index, hspare, -⟩, -⟩⟩ := hchanges.spares_eq
  · rw [hspares]
    cases hopened with
    | spare index hspare hspareSeat => cases hseat.symm.trans hspareSeat
    | file place' _ _ _ _ _ hspares => exact hspares
  · cases hseat.symm.trans hspare

/-! ### The tables -/

section Tables

variable {w w' : Workspace} {place : List String} (hpath : p.storePath? = some path)
  (htables : p.get .filesdb = .ok tablesPath) (hshared : w.WellShared)
  (hopen : (Connection.ofAddress tablesPath).run w = (.ok s.tables, w'))

include hpath htables hshared hopen

/-- From the file of the tables the files of the dataset are read again. -/
theorem tables_reopened (hseat : s.store.connection.seat = .file place)
    {tablesPlace : List String} (htablesSeat : s.tables.seat = .file tablesPlace)
    (hfiles : w.files = s.done.files) (hfiles' : w'.files = s.done.files) :
    ∃ db t, s.tables.openTables.run w' = (.ok (), w') ∧ s.tables.read.run w' = (.ok db, w') ∧
      db.Keeps t ∧ ∀ name ∈ s.listed, name ∈ (t.findFiles? s.dataset).getD [] := by
  obtain ⟨a, -, hopened, -⟩ := Connection.opened_ofAddress hshared hopen
  -- no new file has been made, so the one at this place is the old one
  obtain ⟨content, hthere⟩ : ∃ content, s.done.files.at? tablesPlace = some (.file content) := by
    cases hopened with
    | spare index _ hspare => cases htablesSeat.symm.trans hspare
    | file place' _ hfile _ _ hsame _ =>
      obtain rfl := Seat.file.inj (hfile.symm.trans htablesSeat)
      rcases FileTree.withFileAt?_eq_some hsame with ⟨hthere, -⟩ | ⟨content, -, hnone, habove, hput⟩
      · rwa [hfiles] at hthere
      · exact ⟨content, hfiles' ▸ hput ▸ (FileTree.at?_put_newFile hnone habove content).1⟩
  obtain ⟨db, t, found, hat, hkeeps, hfound, hall, hquiet⟩ :=
    s.tables_done hpath htables hseat htablesSeat hthere
  have hread := Connection.run_read_of_quiet htablesSeat (hfiles' ▸ hat) fun halone =>
    hfiles' ▸ hquiet halone
  have hsame : db.openCatalog = db := by
    rw [Database.openCatalog, hkeeps.catalog, Option.getD_some, ← hkeeps.catalog]
  refine ⟨db, t, Connection.run_make_of_same hread (congrArg _ hsame), hread, hkeeps, ?_⟩
  rw [hfound]
  exact hall

/-- The tables are made again in the first spare database, without files. -/
theorem tables_reopened_spare (hspares : s.storeOpen.spares = []) (hspares' : w.spares = [])
    {index : Nat} (hspare : s.tables.seat = .spare index) :
    ∃ db w'', s.tables.openTables.run w' = (.ok (), w'') ∧ w''.files = w'.files ∧
      s.tables.read.run w'' = (.ok db, w'') ∧ db.Keeps .empty := by
  have hnew : Database.empty.openCatalog ≠ .empty := fun heq =>
    nomatch congrArg Database.catalog heq
  -- the tables were made in an empty database before, so it may be changed
  have hchange : s.tables.access.mayChange = true := by
    obtain ⟨a, v, old, -, -, hopened, hmade, -⟩ := s.tables_opened hpath htables
    have hold := hmade.database_old
    rw [Connection.database?_spare hspare, hopened.first_spare hspares hspare] at hold
    obtain ⟨v', -, ⟨hsame, -⟩ | hwrite⟩ := hmade
    · exact absurd (Option.some.inj hold ▸ hsame) hnew
    · exact Connection.mayChange_of_write hwrite
  obtain ⟨a, -, hopened, -⟩ := Connection.opened_ofAddress hshared hopen
  have hempty := hopened.first_spare hspares' hspare
  have hread := Connection.run_read_spare hspare hempty
  obtain ⟨w'', hw''⟩ : ∃ w'', w'' =
      { w' with spares := w'.spares.set index Database.empty.openCatalog } := ⟨_, rfl⟩
  have hwrite := (Connection.run_write_spare hspare).mpr ⟨hchange, hw''⟩
  refine ⟨Database.empty.openCatalog, w'', Connection.run_make_of_write hread rfl hnew hwrite, ?_,
    ?_, Database.keeps_openCatalog fun _ => rfl⟩
  · rw [hw'']
  · refine Connection.run_read_spare hspare ?_
    rw [hw'']
    exact List.getElem?_set_self (List.getElem?_eq_some_iff.mp hempty).1

end Tables

/-- Wherever the tables are kept, they have the files of the dataset when they are opened again. -/
theorem exists_tables_again (hpath : p.storePath? = some path)
    (htables : p.get .filesdb = .ok tablesPath) (hfile : Address.namesFile path = true)
    (hlisted : s.listed = [] ∨ Address.namesFile tablesPath = true) {w w' : Workspace}
    (hshared : w.WellShared) (hspares : w.spares = []) (hfiles : w.files = s.done.files)
    (hopen : (Connection.ofAddress tablesPath).run w = (.ok s.tables, w'))
    (hfiles' : w'.files = s.done.files) :
    ∃ w'' db t, (Connection.tablesOfParams p).run w = (.ok s.tables, w'') ∧
      w''.files = s.done.files ∧ s.tables.read.run w'' = (.ok db, w'') ∧ db.Keeps t ∧
      ∀ name ∈ s.listed, name ∈ (t.findFiles? s.dataset).getD [] := by
  obtain ⟨⟨place, hseat⟩, hnone⟩ := s.exists_seat hpath hfile
  cases htablesSeat : s.tables.seat with
  | file tablesPlace =>
    obtain ⟨db, t, hmake, hread, hkeeps, hall⟩ :=
      s.tables_reopened hpath htables hshared hopen hseat htablesSeat hfiles hfiles'
    exact ⟨w', db, t, Connection.run_tablesOfParams htables hopen hmake, hfiles', hread, hkeeps,
      hall⟩
  | spare index =>
    obtain ⟨db, w'', hmake, hsame, hread, hkeeps⟩ :=
      s.tables_reopened_spare hpath htables hshared hopen hnone hspares htablesSeat
    refine ⟨w'', db, .empty, Connection.run_tablesOfParams htables hopen hmake, hsame.trans hfiles',
      hread, hkeeps, ?_⟩
    -- no files have been listed, since the address of the tables names no file
    obtain ⟨a, _, _, _, ha, hopened, -⟩ := s.tables_opened hpath htables
    have hempty : s.listed = [] := by
      refine hlisted.resolve_right fun hnames => ?_
      obtain ⟨place', hplace'⟩ := hopened.isSpare_iff.mp ((Address.namesFile_iff ha).mp hnames)
      cases hplace'.symm.trans htablesSeat
    rw [hempty]
    exact fun name hname => nomatch hname

/-- **What has been ingested is found again.** -/
theorem foundAgain (hpath : p.storePath? = some path) (htables : p.get .filesdb = .ok tablesPath)
    (hfile : Address.namesFile path = true)
    (hservice : CollectionName.service p.collectionName = .full)
    (hlisted : s.listed = [] ∨ Address.namesFile tablesPath = true)
    (hingested : HoldsIngested files p) (hback : LeadsBack p files s.done.files path tablesPath)
    {word : String} (hword : StandsAlone word s.text) :
    FoundAgain s.done.files p word s.text s.report s.listed := by
  obtain ⟨w, w', hopen, hopen', hfiles, hfiles'⟩ := hback _ _ _ _ s.store_ok s.tables_ok
  obtain ⟨⟨place, hseat⟩, -⟩ := s.exists_seat hpath hfile
  obtain ⟨hname, hcheck, -⟩ := Store.exists_of_ofParams hpath s.store_ok
  obtain ⟨before, c, db, hbefore, hc, hat, hlonger, hquiet⟩ := s.store_done hpath htables hseat
  -- the collection is opened
  obtain ⟨a, -, hopened, hshared⟩ :=
    Connection.opened_ofAddress (Workspace.wellShared_ofFiles _) hopen
  have hspares : w.spares = [] := by
    cases hopened with
    | spare index _ hspare => cases hseat.symm.trans hspare
    | file place' _ _ _ _ _ hspares => exact hspares
  have hread : ∀ v : Workspace, v.files = s.done.files →
      s.store.connection.read.run v = (.ok db, v) := fun v hv =>
    Connection.run_read_of_quiet hseat (hv ▸ hat) fun _ => hv ▸ hquiet _
  have hstore : (Store.ofParams p).run (.ofFiles s.done.files) = (.ok s.store, w) := by
    have hsame := Database.openCollection_of_collection? (hname ▸ hlonger) hservice
    rw [Store.run_ofParams hpath hopen hcheck (Connection.run_make_of_same (hread w hfiles) hsame),
      ← hname]
  -- the tables are opened
  obtain ⟨w'', tablesDb, t, htablesOpen, hfiles'', htablesRead, hkeeps, hall⟩ :=
    s.exists_tables_again hpath htables hfile hlisted hshared hspares hfiles hopen' hfiles'
  -- the word is searched for
  obtain ⟨found, hfound, hmem⟩ := hword.mem_search (c ++ [s.record])
  have hsearch : (s.store.search word).run w'' = (.ok found, w'') := by
    rw [Store.search, Connection.run_query_of_read (hread w'' hfiles''),
      Database.search_of_service hlonger (hname ▸ hservice), hfound]
  have hproper : ∀ r ∈ found, ∃ d : Dataset, d.IsProper ∧ r.dataset = d.text := by
    intro r hr
    rcases List.mem_append.mp (Collection.mem_of_search hfound hr) with hold | hnew
    · exact hingested _ _ before c s.store_ok hbefore hc r hold
    · rw [List.mem_singleton.mp hnew]
      exact ⟨s.dataset, s.dataset_isProper, rfl⟩
  obtain ⟨hits, hhits, hlisted⟩ := run_hitsOf_of_keeps htablesRead hkeeps hproper
  have hrecord : s.record ∈ found :=
    hmem s.record (List.mem_append_right _ (List.mem_singleton_self _)) rfl
  have hhit := hlisted s.record hrecord s.dataset s.dataset_isProper rfl
  obtain ⟨address, haddress, -⟩ := Option.bind_eq_some_iff.mp hpath
  have hdburi : p.get .dburi = .ok address := Params.get_eq_ok_iff.mpr haddress
  exact ⟨hits, w'', run_find hdburi htables hstore htablesOpen hsearch hhits, _, hhit, rfl, _, rfl,
    hall⟩

end Ingestion

section Main

variable {p : Params} {files : Files} {w : Workspace} {report : Report}
  {path tablesPath word text : String} {listed : List String}

/-- **What an ingest has reported is found again** by any word that stands alone in the text, if the
collection is kept in a file under a name that the database goes along with and, unless there are no
files, the tables are kept in a file, too. Otherwise it is not found. It takes that the addresses
lead back, which they do when the two files were well placed before. -/
theorem found_again (hrun : (ingest p).run (.ofFiles files) = (.ok (some report), w))
    (hpath : p.storePath? = some path) (htables : p.get .filesdb = .ok tablesPath)
    (htext : (p.get .fname).bind files.readDocument = .ok text)
    (hlisted : (p.get .path).bind files.listFiles = .ok listed) (hword : StandsAlone word text) :
    (FoundAgain w.files p word text report listed →
      Address.namesFile path = true ∧ CollectionName.service p.collectionName = .full ∧
        (listed = [] ∨ Address.namesFile tablesPath = true)) ∧
    (Address.namesFile path = true → CollectionName.service p.collectionName = .full →
      (listed = [] ∨ Address.namesFile tablesPath = true) → HoldsIngested files p →
        LeadsBack p files w.files path tablesPath →
          FoundAgain w.files p word text report listed) ∧
    (∀ a a', Address.ofText? path = some a → Address.ofText? tablesPath = some a' →
      WellPlaced files a a' → LeadsBack p files w.files path tablesPath) := by
  obtain ⟨s, rfl, rfl⟩ := Ingestion.exists_of_run hrun
  obtain rfl := Except.ok.inj (htext.symm.trans s.text_ok)
  obtain rfl := Except.ok.inj (hlisted.symm.trans s.listed_ok)
  refine ⟨?_, ?_, fun a a' ha ha' hplaced => s.leadsBack hpath htables ha ha' hplaced⟩
  · rintro ⟨hits, w', hfind, hit, hhit, -, found, hfound, hall⟩
    obtain ⟨hservice, hfile, htablesFile⟩ := namesFile_of_find hpath htables hfind hhit
    refine ⟨hfile, hservice, htablesFile.symm.imp_left fun hnone => ?_⟩
    -- nothing is among no files
    rw [hnone] at hfound
    cases hfound
    exact List.eq_nil_iff_forall_not_mem.mpr fun name hname => nomatch hall name hname
  · intro hfile hservice htablesFile hingested hback
    exact s.foundAgain hpath htables hfile hservice htablesFile hingested hback hword

end Main

/-! ## §4 A site -/

/-- A working directory with a note, a folder with a scan, and two files for databases. -/
def site (store tables : Content) : Files :=
  .folder [("tmp", .folder [("", .folder [("note", .file (.text "silicon wafer")),
    ("raw", .folder [("scan", .file (.text ""))]), ("meta.db", .file store),
    ("files.db", .file tables)])])]

/-- The parameters of the site, for a collection that is kept elsewhere or at the site. -/
def siteParams (dburi : String) : Params := ⟨fun
  | .fname => some "note"
  | .path => some "raw"
  | .dburi => some dburi
  | .filesdb => some "files.db"
  | .experiment => some "beam"
  | .processing => some "raw"
  | .tier => some "first"
  | .dbname | .dbcoll => none⟩

/-- The database in a file of the working directory. -/
def siteDatabase (name : String) : Connection :=
  ⟨.file ["tmp", "", name], (Address.ofPath name).access⟩

/-- The record of the note, and the tables when its dataset has been registered. -/
def siteRecord : CatalogRecord := ⟨"silicon wafer", "/beam/raw/first", 1⟩

def siteDataset : Dataset := ⟨"beam", "raw", "first"⟩

def siteTables : FilesTables := FilesTables.empty.registered siteDataset ["raw/scan"]

def siteReport : Report := ⟨"/beam/raw/first", 1, 1, 1⟩

/-- Wherever the note and the scan stand in the working directory, the note can be read. -/
theorem readDocument_of_note {tree : Files}
    (hnote : tree.at? ["tmp", "", "note"] = some (.file (.text "silicon wafer"))) :
    tree.readDocument "note" = .ok "silicon wafer" := by
  have hplain : Path.hasExtension "note" "docx" = false := by decide +kernel
  have hplace : tree.placeOf "note" = .taken ["tmp", "", "note"] :=
    Path.IsPlain.placeOf_file (by decide +kernel) hnote
  rw [FileTree.readDocument, hplain, if_neg Bool.false_ne_true, FileTree.readText, FileTree.read?,
    FileTree.node?, hplace]
  simp only [hnote, FileTree.content?, Option.bind_some, Content.text?]

/-- And the scan is listed. -/
theorem listFiles_of_scan {tree : Files}
    (hraw : tree.at? ["tmp", "", "raw"] = some (.folder [("scan", .file (.text ""))])) :
    tree.listFiles "raw" = .ok ["raw/scan"] := by
  have hjoin : Path.join "raw" "scan" = "raw/scan" := by decide +kernel
  have hplace : tree.placeOf "raw" = .taken ["tmp", "", "raw"] :=
    Path.IsPlain.placeOf_folder (by decide +kernel) ⟨_, hraw⟩
  have hfolder : tree.node? "raw" = some (.folder [("scan", .file (.text ""))]) := by
    rw [FileTree.node?, hplace]
    exact hraw
  have hfile : tree.node? "raw/scan" = some (.file (.text "")) := by
    have hshort : ¬ Path.pathLimit < (Path.join "raw" "scan").utf8ByteSize := by decide +kernel
    have hname : Path.IsName "scan" := by decide +kernel
    have hscan := FileTree.node?_join_file hfolder hname (by decide +kernel) rfl
    rwa [if_neg hshort, hjoin] at hscan
  simp [FileTree.listFiles, FileTree.below?, Path.below, hfolder, FileTree.descendants,
    FileTree.descendantsOf, FileTree.isFolder, FileTree.read?, FileTree.content?, hfile, hjoin]

section Site

variable {store tables : Content} {spares : List Database} {shared : List (SharedName × Connection)}
  {name : String} (hname : name = "meta.db" ∨ name = "files.db")

include hname

theorem isPlain_site : Path.IsPlain name := by
  rcases hname with rfl | rfl <;> decide +kernel

theorem at?_side_site (side : SideFile) :
    (site store tables).at? (FileTree.workingPlace ++ [side.name name]) = none := by
  rcases hname with rfl | rfl <;> cases side <;> rfl

theorem run_read_site {content : Content} {db : Database}
    (hat : (site store tables).at? ["tmp", "", name] = some (.file content))
    (hdb : content.database? = some db) :
    (siteDatabase name).read.run ⟨site store tables, spares, shared⟩ =
      (.ok db, ⟨site store tables, spares, shared⟩) := by
  have hserves : (siteDatabase name).Serves ⟨site store tables, spares, shared⟩ db :=
    (isPlain_site hname).serves ⟨_, rfl⟩ hat hdb fun side _ => at?_side_site hname side
  exact hserves.run_read

theorem run_write_site {content : Content} {store' tables' : Content} {db : Database}
    (hat : (site store tables).at? ["tmp", "", name] = some (.file content))
    (hput : (site store tables).put ["tmp", "", name] (.file (.database db)) =
      site store' tables') :
    ((siteDatabase name).write db).run ⟨site store tables, spares, shared⟩ =
      (.ok (), ⟨site store' tables', spares, shared⟩) := by
  have hseat : (siteDatabase name).seat = .file ["tmp", "", name] := rfl
  have hfree : (site store tables).HasFree ["tmp", "", name] .journal :=
    (isPlain_site hname).hasFree ⟨_, rfl⟩ (at?_side_site hname .journal)
  refine (Connection.run_write_file hseat).mpr ⟨?_, site store' tables', ?_, rfl⟩
  · exact Connection.mayChange_ofName name
  · rw [FileTree.writeDatabase?_of_free hat hfree, hput]

theorem run_ofAddress_site {content : Content}
    (hat : (site store tables).at? ["tmp", "", name] = some (.file content)) :
    (Connection.ofAddress name).run ⟨site store tables, spares, shared⟩ =
      (.ok (siteDatabase name), ⟨site store tables, spares, shared⟩) :=
  (isPlain_site hname).run_ofAddress_file ⟨_, rfl⟩ hat

end Site

section Runs

variable {store tables : Content} {spares : List Database}
  {shared : List (SharedName × Connection)} {dburi : String}

/-- The tables are made in their file, and the dataset is registered. -/
theorem run_tablesOfParams_site :
    (Connection.tablesOfParams (siteParams dburi)).run ⟨site store (.text ""), spares, shared⟩ =
      (.ok (siteDatabase "files.db"),
        ⟨site store (.database Database.empty.openCatalog), spares, shared⟩) := by
  refine Connection.run_tablesOfParams rfl (run_ofAddress_site (.inr rfl) rfl) ?_
  refine Connection.run_make_of_write (run_read_site (.inr rfl) rfl rfl) rfl ?_ ?_
  · exact fun heq => nomatch congrArg Database.catalog heq
  · exact run_write_site (.inr rfl) rfl rfl

theorem run_insertDataset_site :
    ((siteDatabase "files.db").insertDataset siteDataset ["raw/scan"]).run
        ⟨site store (.database Database.empty.openCatalog), spares, shared⟩ =
      (.ok 1, ⟨site store (.database ⟨[], some siteTables⟩), spares, shared⟩) := by
  have hkeeps : Database.empty.openCatalog.Keeps .empty := Database.keeps_openCatalog fun _ => rfl
  exact Connection.run_update_of_write (run_read_site (.inr rfl) rfl rfl)
    (hkeeps.insertDataset siteDataset ["raw/scan"]) (.inl rfl) (run_write_site (.inr rfl) rfl rfl)

/-- The files of the site are well placed. -/
theorem wellPlaced_site :
    WellPlaced (site store tables) (Address.ofPath "meta.db") (Address.ofPath "files.db") := by
  have hstore : (site store tables).placeOf "meta.db" = .taken ["tmp", "", "meta.db"] :=
    (isPlain_site (.inl rfl)).placeOf_file rfl
  have htables : (site store tables).placeOf "files.db" = .taken ["tmp", "", "files.db"] :=
    (isPlain_site (.inr rfl)).placeOf_file rfl
  refine ⟨⟨_, rfl⟩, fun _ => ?_, fun _ => ?_, fun _ _ side => ?_⟩
  · rw [Address.IsClearIn, Address.ofPath, hstore]
    exact ⟨by simp, fun side => by cases side <;> rfl⟩
  · rw [Address.IsClearIn, Address.ofPath, htables]
    exact ⟨by simp, fun side => by cases side <;> rfl⟩
  · rw [Address.ofPath, Address.ofPath, hstore, htables]
    cases side <;> decide

end Runs

/-- The database with an empty collection, and with the note in it. -/
def emptyCollection : Database := ⟨[("metadata", [])], none⟩

def noteCollection : Database := ⟨[("metadata", [siteRecord])], none⟩

/-- Wherever the collection is kept, the note is ingested as its first record. -/
theorem ingest_site {dburi path : String} {c : Connection} {store : Content}
    {spares spares' : List Database} {w : Workspace}
    (hkeys : (siteParams dburi).require ingestKeys = .ok ())
    (hpath : (siteParams dburi).storePath? = some path)
    (hopen : (Connection.ofAddress path).run (.ofFiles (site (.text "") (.text ""))) =
      (.ok c, ⟨site (.text "") (.text ""), spares, []⟩))
    (hread : c.read.run ⟨site (.text "") (.text ""), spares, []⟩ =
      (.ok .empty, ⟨site (.text "") (.text ""), spares, []⟩))
    (hwrite : (c.write emptyCollection).run ⟨site (.text "") (.text ""), spares, []⟩ =
      (.ok (), ⟨site store (.text ""), spares', []⟩))
    (hread' : c.read.run ⟨site store (.database ⟨[], some siteTables⟩), spares', []⟩ =
      (.ok emptyCollection, ⟨site store (.database ⟨[], some siteTables⟩), spares', []⟩))
    (hwrite' : (c.write noteCollection).run
      ⟨site store (.database ⟨[], some siteTables⟩), spares', []⟩ = (.ok (), w)) :
    (ingest (siteParams dburi)).run (.ofFiles (site (.text "") (.text ""))) =
        (.ok (some siteReport), w) ∧
      HoldsIngested (site (.text "") (.text "")) (siteParams dburi) := by
  have hname : (siteParams dburi).NamesCollection := by
    have hcheck : CollectionName.check "metadata" = .ok () := by decide +kernel
    exact hcheck
  have hnew : Database.empty.openCollection "metadata" = .ok emptyCollection := by decide +kernel
  have hne : emptyCollection ≠ .empty := by decide +kernel
  have hmake : (c.make fun db => db.openCollection "metadata").run
      ⟨site (.text "") (.text ""), spares, []⟩ = (.ok (), ⟨site store (.text ""), spares', []⟩) :=
    Connection.run_make_of_write hread hnew hne hwrite
  have hstore : (Store.ofParams (siteParams dburi)).run (.ofFiles (site (.text "") (.text ""))) =
      (.ok ⟨c, "metadata"⟩, ⟨site store (.text ""), spares', []⟩) :=
    Store.run_ofParams hpath hopen hname hmake
  have hinsert : emptyCollection.insertRecord "metadata" siteRecord = (.ok 1, noteCollection) := by
    decide +kernel
  have hrecord : ((⟨c, "metadata"⟩ : Store).insert siteRecord).run
      ⟨site store (.database ⟨[], some siteTables⟩), spares', []⟩ = (.ok 1, w) :=
    Connection.run_update_of_write hread' hinsert (.inl rfl) hwrite'
  refine ⟨?_, fun s w' db records hs hdb hrecords => ?_⟩
  · let steps : Ingestion (siteParams dburi) (.ofFiles (site (.text "") (.text ""))) :=
      { dataset := siteDataset, text := "silicon wafer", listed := ["raw/scan"]
        store := ⟨c, "metadata"⟩, tables := siteDatabase "files.db", number := 1, recordId := 1
        storeOpen := ⟨site store (.text ""), spares', []⟩
        tablesOpen := ⟨site store (.database Database.empty.openCatalog), spares', []⟩
        registered := ⟨site store (.database ⟨[], some siteTables⟩), spares', []⟩
        done := w
        dataset_ok := rfl
        text_ok := readDocument_of_note rfl
        listed_ok := listFiles_of_scan rfl
        store_ok := hstore
        tables_ok := run_tablesOfParams_site
        number_ok := run_insertDataset_site
        record_ok := hrecord }
    have htext : Text.isBlankText "silicon wafer" = false := by decide +kernel
    exact steps.run_ingest hkeys htext
  · -- the collection has just been made
    have hold := (Connection.of_read hread).1
    cases hstore.symm.trans hs
    cases (Connection.of_write hold hwrite).1.symm.trans hdb
    have hempty : emptyCollection.collection? "metadata" = some [] := by decide +kernel
    cases hempty.symm.trans hrecords
    exact fun r hr => nomatch hr

theorem wafer_standsAlone : StandsAlone "wafer" "silicon wafer" where
  ne_empty := by decide
  alphanum := List.all_eq_true.mp (by decide)
  between := ⟨"silicon ".toList, [], by decide, .inr ⟨"silicon".toList, by decide⟩, .inl rfl⟩

/-- With a file for the collection the note is found again. -/
theorem found_again_site : ∃ w, (ingest (siteParams "sqlite://meta.db")).run
      (.ofFiles (site (.text "") (.text ""))) = (.ok (some siteReport), w) ∧
    FoundAgain w.files (siteParams "sqlite://meta.db") "wafer" "silicon wafer" siteReport
      ["raw/scan"] := by
  have hpath : (siteParams "sqlite://meta.db").storePath? = some "meta.db" := by decide +kernel
  have hfile : Address.namesFile "meta.db" = true := by decide +kernel
  have htablesFile : Address.namesFile "files.db" = true := by decide +kernel
  have hservice : CollectionName.service "metadata" = .full := by decide +kernel
  obtain ⟨hrun, hingested⟩ := ingest_site (by decide +kernel) hpath
    (run_ofAddress_site (.inl rfl) rfl) (run_read_site (.inl rfl) rfl rfl)
    (run_write_site (.inl rfl) rfl rfl) (run_read_site (.inl rfl) rfl rfl)
    (run_write_site (.inl rfl) rfl rfl)
  obtain ⟨-, hfound, hback⟩ :=
    found_again hrun hpath rfl (readDocument_of_note rfl) (listFiles_of_scan rfl) wafer_standsAlone
  refine ⟨_, hrun, hfound hfile hservice (.inr htablesFile) hingested ?_⟩
  exact hback _ _ (by decide +kernel) (by decide +kernel) wellPlaced_site

/-- The connection to the first spare database. -/
def spareDatabase : Connection := ⟨.spare 0, (Address.ofPath "").access⟩

/-- **With an empty path** the note is ingested and lost: a spare database is gone when the ingest
is done. -/
theorem lost_without_path : ∃ w, (siteParams "sqlite://").get .dburi = .ok "sqlite://" ∧
    (ingest (siteParams "sqlite://")).run (.ofFiles (site (.text "") (.text ""))) =
      (.ok (some siteReport), w) ∧
    HoldsIngested (site (.text "") (.text "")) (siteParams "sqlite://") ∧
    StandsAlone "wafer" "silicon wafer" ∧
    ¬ FoundAgain w.files (siteParams "sqlite://") "wafer" "silicon wafer" siteReport
      ["raw/scan"] := by
  have hpath : (siteParams "sqlite://").storePath? = some "" := by decide +kernel
  have hdburi : (siteParams "sqlite://").get .dburi = .ok "sqlite://" := by decide +kernel
  have hopen : (Connection.ofAddress "").run (.ofFiles (site (.text "") (.text ""))) =
      (.ok spareDatabase, ⟨site (.text "") (.text ""), [.empty], []⟩) := by
    have haddress : Address.ofText? "" = some (Address.ofPath "") := by decide +kernel
    rw [Connection.ofAddress, haddress]
    rfl
  have hread : ∀ (files : Files) (db : Database), spareDatabase.read.run ⟨files, [db], []⟩ =
      (.ok db, ⟨files, [db], []⟩) := fun files db => Connection.run_read_spare rfl rfl
  have hwrite : ∀ (files : Files) (old new : Database),
      (spareDatabase.write new).run ⟨files, [old], []⟩ = (.ok (), ⟨files, [new], []⟩) :=
    fun files old new => (Connection.run_write_spare rfl).mpr ⟨rfl, rfl⟩
  obtain ⟨hrun, hingested⟩ := ingest_site (by decide +kernel) hpath hopen (hread _ _)
    (hwrite _ _ _) (hread _ _) (hwrite _ _ _)
  refine ⟨_, hdburi, hrun, hingested, wafer_standsAlone, ?_⟩
  rintro ⟨hits, w, hfind, hit, hhit, -⟩
  obtain ⟨-, hfile, -⟩ := namesFile_of_find hpath rfl hfind hhit
  exact absurd hfile (by decide +kernel)

end MetadataCatalog
