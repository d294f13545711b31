import MetadataCatalog.Proofs.Catalog.Ingesting
import MetadataCatalog.Proofs.Catalog.Searching

/-!
# What a search finds

A search that succeeds is taken apart into its steps (`exists_of_find`). A spare database is new
when it is opened, so there are neither records nor files to be found in it (`namesFile_of_find`).
-/

namespace MetadataCatalog

/-! ## §1 Databases with nothing in them -/

namespace Database

variable {db new : Database} {name : String}

/-- There may be collections and tables, but they are empty. -/
structure IsBarren (db : Database) : Prop where
  collections : ∀ entry ∈ db.collections, entry.2 = []
  tables : db.tables = .empty

theorem isBarren_empty : empty.IsBarren :=
  ⟨fun _ h => (nomatch h), rfl⟩

theorem IsBarren.openCatalog (h : db.IsBarren) : db.openCatalog.IsBarren :=
  ⟨h.collections, h.tables⟩

/-- What is made is an empty collection. -/
theorem IsBarren.openCollection (h : db.IsBarren) (hnew : db.openCollection name = .ok new) :
    new.IsBarren := by
  simp only [Database.openCollection] at hnew
  split at hnew
  · cases hnew
  · split at hnew
    · cases hnew
      exact h
    · split at hnew
      · cases hnew
      · cases hnew
        refine ⟨fun entry hentry => ?_, h.tables⟩
        rcases List.mem_append.mp hentry with hold | hlast
        · exact h.collections entry hold
        · rw [List.mem_singleton.mp hlast]

theorem IsBarren.collection?_eq (h : db.IsBarren) {c : Collection}
    (hc : db.collection? name = some c) : c = [] := by
  obtain ⟨entry, hentry, rfl⟩ := Option.map_eq_some_iff.mp hc
  exact h.collections entry (List.mem_of_find?_eq_some hentry)

theorem IsBarren.findFiles_eq (h : db.IsBarren) {d : Dataset} {answer : Option (List String)}
    (hanswer : db.findFiles d = .ok answer) : answer = none := by
  have hnone : db.tables.datasetId? d = none := by
    rw [h.tables]
    rfl
  unfold Database.findFiles Database.datasetId at hanswer
  split at hanswer
  · cases hanswer
  · rw [hnone] at hanswer
    cases hanswer
    rfl

end Database

/-! ## §2 The steps of a search -/

section Steps

variable {p : Params} {w w' : Workspace}

/-- A search with files opens the collection and the tables, looks for records, and then for the
files of each. -/
theorem exists_of_find {query : String} {hits : List Hit}
    (h : (find p query true).run w = (.ok hits, w')) :
    ∃ store w₁ tables w₂ records w₃, (Store.ofParams p).run w = (.ok store, w₁) ∧
      (Connection.tablesOfParams p).run w₁ = (.ok tables, w₂) ∧
      (store.search query).run w₂ = (.ok records, w₃) ∧
      (hitsOf (some tables.keeper) records).run w₃ = (.ok hits, w') := by
  unfold find at h
  obtain ⟨_, -, h⟩ := Work.exists_of_run_bind_same rfl h
  obtain ⟨_, -, h⟩ := Work.exists_of_run_bind_same rfl h
  obtain ⟨store, w₁, hstore, h⟩ := Work.exists_of_run_bind h
  obtain ⟨_, w₂, hopened, h⟩ := Work.exists_of_run_bind h
  obtain ⟨tables, htables, rfl⟩ := Work.exists_of_run_map hopened
  obtain ⟨records, w₃, hsearch, hhits⟩ := Work.exists_of_run_bind h
  exact ⟨store, w₁, tables, w₂, records, w₃, hstore, htables, hsearch, hhits⟩

/-- The files of a dataset are asked for where the dataset is named as it should be. -/
theorem exists_of_filesFor {tables : Connection} {dataset : String} {files : List String}
    (h : (filesFor tables.keeper dataset).run w = (.ok files, w')) :
    ∃ d db answer, Dataset.ofText dataset = .ok d ∧ tables.read.run w = (.ok db, w') ∧
      db.findFiles d = .ok answer ∧ files = answer.getD [] := by
  unfold filesFor at h
  obtain ⟨d, hd, h⟩ := Work.exists_of_run_bind_same rfl h
  obtain ⟨answer, w₁, hask, h⟩ := Work.exists_of_run_bind h
  cases h
  obtain ⟨db, hread, hfiles⟩ := Connection.exists_of_query hask
  exact ⟨d, db, answer, hd, hread, hfiles, rfl⟩

/-- Each hit is one of the records with the files of its dataset, as they are found at some point on
the way. -/
theorem exists_of_hitsOf {tables : Connection} (P : Workspace → Prop)
    (hP : ∀ w w' db, P w → tables.read.run w = (.ok db, w') → P w') {records : List CatalogRecord}
    {hits : List Hit} (hw : P w)
    (h : (hitsOf (some tables.keeper) records).run w = (.ok hits, w')) {hit : Hit}
    (hhit : hit ∈ hits) :
    hit.record ∈ records ∧ ∃ w₁ w₂ files, P w₁ ∧
      (filesFor tables.keeper hit.record.dataset).run w₁ = (.ok files, w₂) ∧
      hit.files = some files := by
  induction records generalizing w hits with
  | nil =>
    cases h
    cases hhit
  | cons record rest ih =>
    simp only [hitsOf] at h
    obtain ⟨_, w₁, hasked, h⟩ := Work.exists_of_run_bind h
    obtain ⟨files, hfiles, rfl⟩ := Work.exists_of_run_map hasked
    obtain ⟨more, w₂, hrest, h⟩ := Work.exists_of_run_bind h
    cases h
    rcases List.mem_cons.mp hhit with rfl | hmore
    · exact ⟨List.mem_cons_self, w, w₁, files, hw, hfiles, rfl⟩
    · obtain ⟨_, db, _, _, hread, _⟩ := exists_of_filesFor hfiles
      obtain ⟨hrecord, hfound⟩ := ih (hP _ _ _ hw hread) hrest hmore
      exact ⟨List.mem_cons_of_mem _ hrecord, hfound⟩

end Steps

/-! ## §3 Spare databases -/

/-- Every spare database is barren. -/
def Workspace.SparesBarren (w : Workspace) : Prop :=
  ∀ db ∈ w.spares, db.IsBarren

namespace Connection

variable {c : Connection} {w w' : Workspace}

/-- A spare database that is opened is a new one. -/
theorem Opened.sparesBarren {a : Address} (h : Opened a w c w') (hw : w.SparesBarren) :
    w'.SparesBarren := by
  cases h with
  | spare index hspare hseat hindex hspares hfiles =>
    intro db hdb
    rw [hspares] at hdb
    rcases List.mem_append.mp hdb with hold | hlast
    · exact hw db hold
    · rw [List.mem_singleton.mp hlast]
      exact Database.isBarren_empty
  | file place hfile hseat halone hplace hfiles hspares =>
    intro db hdb
    exact hw db (hspares ▸ hdb)

theorem mem_spares_of_database? {index : Nat} {db : Database} (hseat : c.seat = .spare index)
    (h : c.database? w = some db) : db ∈ w.spares := by
  rw [database?_spare hseat] at h
  exact List.mem_of_getElem? h

theorem Changes.sparesBarren {old new : Database} (h : c.Changes old new w w')
    (hnew : old.IsBarren → new.IsBarren) (hw : w.SparesBarren) : w'.SparesBarren := by
  obtain ⟨-, ⟨-, hsame⟩ | ⟨⟨index, hseat, hset⟩, -⟩⟩ := h.spares_eq
  · intro db hdb
    exact hw db (hsame ▸ hdb)
  · intro db hdb
    rw [hset] at hdb
    rcases List.mem_or_eq_of_mem_set hdb with hold | rfl
    · exact hw db hold
    · exact hnew (hw old (mem_spares_of_database? hseat h.database_old))

/-- To read leaves the spare databases alone. -/
theorem spares_of_read {db : Database} (h : c.read.run w = (.ok db, w')) :
    w'.spares = w.spares := by
  obtain ⟨files, -, rfl, -⟩ := run_read_eq_ok_iff.mp h
  rfl

end Connection

section Spare

variable {p : Params} {files : Files} {w : Workspace} {query path tablesPath : String}
  {hits : List Hit} {hit : Hit}

/-- **Only in a file** is anything found, and only under a name that the database goes along
with. -/
theorem namesFile_of_find (hpath : p.storePath? = some path)
    (htables : p.get .filesdb = .ok tablesPath)
    (h : (find p query true).run (.ofFiles files) = (.ok hits, w)) (hhit : hit ∈ hits) :
    CollectionName.service p.collectionName = .full ∧ Address.namesFile path = true ∧
      (Address.namesFile tablesPath = true ∨ hit.files = some []) := by
  obtain ⟨store, w₁, tables, w₂, records, w₃, hstore, hopened, hsearch, hhits⟩ := exists_of_find h
  obtain ⟨hname, -, w₀, hopen, old, new, hnew, hmade⟩ := Store.exists_of_ofParams hpath hstore
  obtain ⟨a, ha, hopen, hshared⟩ :=
    Connection.opened_ofAddress (Workspace.wellShared_ofFiles files) hopen
  obtain ⟨w₁', hopen', old', hmade'⟩ := Connection.exists_of_tablesOfParams htables hopened
  obtain ⟨a', ha', hopen', -⟩ := Connection.opened_ofAddress (hmade.wellShared hshared) hopen'
  -- whatever is made in a spare database is empty
  have hbarren : w₂.SparesBarren := by
    have hstart : (Workspace.ofFiles files).SparesBarren := fun db hdb => nomatch hdb
    exact hmade'.sparesBarren (·.openCatalog) (hopen'.sparesBarren
      (hmade.sparesBarren (·.openCollection hnew) (hopen.sparesBarren hstart)))
  obtain ⟨db, hread, hfound⟩ := Connection.exists_of_query hsearch
  have hkept : ∀ {c : Connection} {u u' : Workspace} {db : Database},
      c.read.run u = (.ok db, u') → u.SparesBarren → u'.SparesBarren :=
    fun hread hu db hdb => hu db (Connection.spares_of_read hread ▸ hdb)
  obtain ⟨hrecord, w₄, w₅, found, hw₄, hfiles, hhitFiles⟩ :=
    exists_of_hitsOf Workspace.SparesBarren (fun _ _ _ hu hread => hkept hread hu)
      (hkept hread hbarren) hhits hhit
  obtain ⟨c, hc, hservice, hfound'⟩ := Database.exists_of_search hfound hrecord
  refine ⟨hname ▸ hservice, ?_, ?_⟩
  · rw [Address.namesFile_iff ha]
    by_contra hspare
    cases hseat : store.connection.seat with
    | file place => exact hspare (hopen.isSpare_iff.mpr ⟨place, hseat⟩)
    | spare index =>
      have hdb := Connection.mem_spares_of_database? hseat (Connection.of_read hread).1
      have hmem := Collection.mem_of_search hfound' hrecord
      rw [(hbarren db hdb).collection?_eq hc] at hmem
      cases hmem
  · rw [Address.namesFile_iff ha']
    cases hseat : tables.seat with
    | file place => exact Or.inl (hopen'.isSpare_iff.mpr ⟨place, hseat⟩)
    | spare index =>
      obtain ⟨d, db', answer, -, hread', hanswer, rfl⟩ := exists_of_filesFor hfiles
      have hdb := Connection.mem_spares_of_database? hseat (Connection.of_read hread').1
      rw [(hw₄ db' hdb).findFiles_eq hanswer] at hhitFiles
      exact Or.inr hhitFiles

end Spare

end MetadataCatalog
