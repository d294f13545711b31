import MetadataCatalog.Proofs.Catalog.Connections
import MetadataCatalog.Proofs.Catalog.Databases
import MetadataCatalog.Proofs.Catalog.Mirroring
import MetadataCatalog.Proofs.Catalog.Shelves

/-!
# Shelves in a workspace

A collection and the five tables, each behind a connection that serves, make up a shelf
(`Shelf.ServedBy`). They may be in one database or in two. What is ingested into them and found in
them is what is ingested and found on the shelf.

- **One ingest** has the outcome that it has on the shelf, and the shelf after it is served
  (`ServedBy.run_ingestInto`).
- **One find** has the outcome that it has on the shelf, and changes nothing
  (`ServedBy.run_findIn`).
- **A run** of them, by induction, goes on as on the shelf (`ServedBy.afterAll`). So after any run
  on what was opened empty (`ServedBy.of_opened`) every record that is found comes with the files
  that were ingested for its dataset (`ServedBy.findIn_after`).
-/

namespace MetadataCatalog

/-! ## §1 Two connections -/

namespace Connection

variable {c other : Connection} {w w' : Workspace} {db new old : Database}

/-- The database of a connection depends on its seat only. -/
theorem database?_of_seat (h : other.seat = c.seat) (w : Workspace) :
    other.database? w = c.database? w := by
  unfold database?
  rw [h]

/-- When the database behind one connection has been changed, another connection serves what it
served before, or it leads to the same database and serves what that has become. -/
theorem Serves.of_changed (h : other.Serves w old) (hc : c.Serves w db) (hnew : c.Serves w' new)
    (hothers : c.KeepsOthers w w') :
    other.Serves w' old ∨ old = db ∧ other.Serves w' new := by
  by_cases hseat : other.seat = c.seat
  · right
    refine ⟨Option.some.inj ?_, h.mayChange, ?_, fun place hplace => ?_⟩
    · rw [← h.database, ← hc.database, database?_of_seat hseat]
    · rw [database?_of_seat hseat, hnew.database]
    · exact hnew.free place (hseat.symm.trans hplace)
  · exact .inl (hothers other old hseat h)

end Connection

/-! ## §2 The shelf of a collection and tables -/

namespace Shelf

variable {shelf : Shelf} {store : Store} {tables : Connection} {w : Workspace}

/-- The records of the collection and the five tables are those of the shelf. -/
structure ServedBy (shelf : Shelf) (store : Store) (tables : Connection) (w : Workspace) :
    Prop where
  service : CollectionName.service store.collection = .full
  records : ∃ db, store.connection.Serves w db ∧
    db.collection? store.collection = some shelf.records
  tables : ∃ db, tables.Serves w db ∧ db.Keeps shelf.tables

namespace ServedBy

/-- Registering a dataset changes the tables of the shelf. -/
theorem run_insertDataset (h : shelf.ServedBy store tables w) (d : Dataset) (files : List String) :
    ∃ w', (tables.insertDataset d files).run w = (.ok (shelf.tables.numberFor d), w') ∧
      ({ shelf with tables := shelf.tables.registered d files } : Shelf).ServedBy store tables
        w' := by
  obtain ⟨db, hserves, hkeeps⟩ := h.tables
  obtain ⟨old, hstore, hrecords⟩ := h.records
  obtain ⟨w', hrun, hserves', hothers⟩ :=
    hserves.run_update (files ≠ []) fun db => db.insertDataset d files
  rw [hkeeps.insertDataset] at hrun hserves'
  refine ⟨w', hrun, h.service, ?_, _, hserves', hkeeps.withCatalog _⟩
  -- in another database the collection is untouched, in the same one it is next to the tables
  rcases hstore.of_changed hserves hserves' hothers with hkept | ⟨rfl, hshared⟩
  · exact ⟨old, hkept, hrecords⟩
  · exact ⟨_, hshared, hrecords⟩

/-- Adding a record changes the records of the shelf. -/
theorem run_insert (h : shelf.ServedBy store tables w) (r : CatalogRecord) :
    ∃ w', (store.insert r).run w = (.ok (shelf.records.length + 1), w') ∧
      ({ shelf with records := shelf.records ++ [r] } : Shelf).ServedBy store tables w' := by
  obtain ⟨db, hserves, hrecords⟩ := h.records
  obtain ⟨old, htables, hkeeps⟩ := h.tables
  obtain ⟨w', hrun, hserves', hothers⟩ :=
    hserves.run_update true fun db => db.insertRecord store.collection r
  rw [Database.insertRecord_of_collection? hrecords] at hrun hserves'
  refine ⟨w', hrun, h.service,
    ⟨_, hserves', Database.collection?_withCollection hrecords _⟩, ?_⟩
  rcases htables.of_changed hserves hserves' hothers with hkept | ⟨rfl, hshared⟩
  · exact ⟨old, hkept, hkeeps⟩
  · exact ⟨_, hshared, hkeeps.withCollection _ _⟩

theorem run_search (h : shelf.ServedBy store tables w) (query : String) :
    (store.search query).run w = (Collection.search shelf.records query, w) := by
  obtain ⟨db, hserves, hrecords⟩ := h.records
  have hrun := hserves.run_query fun db => db.search store.collection query
  rwa [Database.search_of_service hrecords h.service] at hrun

theorem run_findFiles (h : shelf.ServedBy store tables w) (d : Dataset) :
    (tables.findFiles d).run w = (.ok (shelf.tables.findFiles? d), w) := by
  obtain ⟨db, hserves, hkeeps⟩ := h.tables
  have hrun := hserves.run_query fun db => db.findFiles d
  rwa [hkeeps.findFiles] at hrun

/-- Where there is neither a collection nor a row of a table, a collection and the tables are opened
as the empty shelf. -/
theorem of_opened {c : Connection} {name : String} {db db' : Database} (hc : c.Serves w db)
    (htables : tables.Serves w db') (hnone : db.collections = []) (hnone' : db'.collections = [])
    (hempty : db'.tables = .empty) (hcheck : CollectionName.check name = .ok ())
    (hservice : CollectionName.service name = .full)
    (hfree : ∀ table, CatalogTable.name table ≠ Text.lowerAscii name) :
    ∃ w', (do let store ← Store.ofConnection c name; tables.openTables; return store).run w =
        (.ok ⟨c, name⟩, w') ∧
      empty.ServedBy ⟨c, name⟩ tables w' := by
  have hnew := Database.openCollection_of_empty hnone hservice hfree
  obtain ⟨w₁, hopen, hserves, hothers⟩ := hc.run_make (fun db => db.openCollection name) hnew
  have hstore : (Store.ofConnection c name).run w = (.ok ⟨c, name⟩, w₁) := by
    unfold Store.ofConnection
    rw [hcheck]
    exact Work.run_bind_ok hopen _
  have hrecords : ({ db with collections := [(Text.lowerAscii name, [])] } : Database).collection?
      name = some [] := Database.collection?_of_single rfl
  -- the tables are still empty, and the new collection does not cover them
  obtain ⟨db₁, hserves₁, hempty₁, huncovered⟩ : ∃ db₁, tables.Serves w₁ db₁ ∧
      db₁.tables = .empty ∧ ∀ table, db₁.covered table = false := by
    rcases htables.of_changed hc hserves hothers with hkept | ⟨rfl, hshared⟩
    · refine ⟨db', hkept, hempty, Database.uncovered_of_forall ?_⟩
      rw [hnone']
      exact fun _ hentry => nomatch hentry
    · refine ⟨_, hshared, hempty, Database.uncovered_of_forall ?_⟩
      intro entry hentry table
      rw [List.mem_singleton.mp hentry]
      exact hfree table
  obtain ⟨w₂, hopenTables, hserves₂, hothers₂⟩ := hserves₁.run_openTables
  refine ⟨w₂, (Work.run_bind_ok hstore _).trans (Work.run_bind_ok hopenTables _), hservice, ?_, ?_⟩
  · rcases hserves.of_changed hserves₁ hserves₂ hothers₂ with hkept | ⟨rfl, hshared⟩
    · exact ⟨_, hkept, hrecords⟩
    · exact ⟨_, hshared, hrecords⟩
  · have hkeeps := Database.keeps_openCatalog huncovered
    rw [hempty₁] at hkeeps
    exact ⟨_, hserves₂, hkeeps⟩

/-! ## §3 One call -/

/-- **One ingest** goes as on the shelf. -/
theorem run_ingestInto (h : shelf.ServedBy store tables w) (d : Dataset) (text : String)
    (files : List String) :
    let onShelf := (ingestWith (recordKeeper .byExpression none)
      (datasetKeeper FilesTables.obliging) d text files).run shelf
    ∃ w', (ingestInto store tables d text files).run w = (onShelf.1, w') ∧
      onShelf.2.ServedBy store tables w' := by
  refine ingestWith_mirrors
    (R := fun w shelf => shelf.ServedBy store tables w) ?_ ?_ d text files w shelf h
  · intro d files w shelf h
    obtain ⟨w', hrun, hserved⟩ := h.run_insertDataset d files
    refine ⟨w', ?_, ?_⟩
    · rw [Shelf.run_insertDataset, FilesTables.insertDataset_obliging]
      exact hrun
    · rw [Shelf.run_insertDataset, FilesTables.insertDataset_obliging]
      exact hserved
  · intro r w shelf h
    exact h.run_insert r

/-- **One find** goes as on the shelf, and changes nothing. -/
theorem run_findIn (h : shelf.ServedBy store tables w) (withFiles : Bool) (query : String) :
    let onShelf := (findWith (recordKeeper .byExpression none)
      (if withFiles then some (datasetKeeper FilesTables.obliging) else none) query).run shelf
    (findIn store (if withFiles then some tables else none) query).run w = (onShelf.1, w) ∧
      onShelf.2 = shelf := by
  -- the work of a find leads from this workspace and this shelf to the same again
  have hmirrors : Work.Mirrors (fun w' shelf' => w' = w ∧ shelf' = shelf)
      (findWith store.keeper (if withFiles then some tables.keeper else none) query)
      (findWith (recordKeeper .byExpression none)
        (if withFiles then some (datasetKeeper FilesTables.obliging) else none) query) := by
    refine findWith_mirrors withFiles ?_ ?_ query
    · rintro query _ _ ⟨rfl, rfl⟩
      exact ⟨_, h.run_search query, rfl, rfl⟩
    · rintro _ d _ _ ⟨rfl, rfl⟩
      exact ⟨_, h.run_findFiles d, rfl, rfl⟩
  obtain ⟨w', hrun, rfl, hshelf⟩ := hmirrors w shelf ⟨rfl, rfl⟩
  refine ⟨?_, hshelf⟩
  rw [← hrun]
  cases withFiles <;> rfl

end ServedBy

/-! ## §4 Runs -/

/-- An ingest of a dataset that was made from its parts, or a find. -/
inductive Request where
  | ingest (d : Dataset) (made : ∃ experiment processing tier,
        Dataset.ofParts experiment processing tier = .ok d)
      (text : String) (files : List String)
  | find (query : String) (withFiles : Bool)

namespace Request

/-- The call that a request is: nothing is refused. -/
def call : Request → Call
  | ingest d made text files => .ingest d made text files FilesTables.obliging none
  | find query withFiles => .find query withFiles

/-- The workspace after a request to a collection and tables. -/
def after (store : Store) (tables : Connection) (w : Workspace) : Request → Workspace
  | ingest d _ text files => ((ingestInto store tables d text files).run w).2
  | find query withFiles => ((findIn store (if withFiles then some tables else none) query).run w).2

/-- What a request registers. -/
def registers : Request → Register
  | ingest d _ _ files => [(d, files)]
  | find _ _ => []

end Request

theorem committed_request (shelf : Shelf) (request : Request) :
    shelf.committed request.call = request.registers := by
  cases request with
  | ingest d made text files =>
    rw [Request.call, committed, FilesTables.insertDataset_obliging]
    rfl
  | find query withFiles => rfl

theorem committedBy_requests (method : SearchMethod) (shelf : Shelf) (requests : List Request) :
    shelf.committedBy method (requests.map Request.call) = requests.flatMap Request.registers := by
  induction requests generalizing shelf with
  | nil => rfl
  | cons request rest ih =>
    rw [List.map_cons, committedBy, committed_request, ih, List.flatMap_cons]

namespace ServedBy

/-- **One request** goes as the call on the shelf. -/
theorem after (h : shelf.ServedBy store tables w) (request : Request) :
    (shelf.after .byExpression request.call).ServedBy store tables
      (request.after store tables w) := by
  cases request with
  | ingest d made text files =>
    obtain ⟨w', hrun, hserved⟩ := h.run_ingestInto d text files
    rw [Request.after, hrun]
    exact hserved
  | find query withFiles =>
    obtain ⟨hrun, hshelf⟩ := h.run_findIn withFiles query
    have hafter : shelf.after .byExpression (Request.find query withFiles).call = shelf := hshelf
    rw [Request.after, hrun, hafter]
    exact h

/-- **A run** of requests goes as the calls on the shelf. -/
theorem afterAll (h : shelf.ServedBy store tables w) (requests : List Request) :
    (shelf.afterAll .byExpression (requests.map Request.call)).ServedBy store tables
      (requests.foldl (Request.after store tables) w) := by
  induction requests generalizing shelf w with
  | nil => exact h
  | cons request rest ih => exact ih (h.after request)

/-- After any requests to an empty shelf a find with the files succeeds when one without them does,
with the same records in the same order, and each record comes with the files that were ingested for
its dataset, each once and in the order in which they first came. -/
theorem findIn_after (h : empty.ServedBy store tables w) (requests : List Request) {query : String}
    {plain : List Hit} :
    let w' := requests.foldl (Request.after store tables) w
    (findIn store none query).run w' = (.ok plain, w') →
      ∃ hits, (findIn store (some tables) query).run w' = (.ok hits, w') ∧
        hits.map Hit.record = plain.map Hit.record ∧
        ∀ hit ∈ hits, ∃ d files, Dataset.ofText hit.record.dataset = .ok d ∧
          hit.files = some files ∧ Register.Lists (requests.flatMap Request.registers) d files := by
  intro w' hplain
  have hserved := h.afterAll requests
  have hagrees := empty_agrees.afterAll .byExpression (requests.map Request.call)
  rw [committedBy_requests, List.nil_append] at hagrees
  have hrunPlain := (hserved.run_findIn false query).1
  have hrunHits := (hserved.run_findIn true query).1
  simp only [Bool.false_eq_true, if_false, if_true] at hrunPlain hrunHits
  cases hsearch : SearchMethod.byExpression.search
    (empty.afterAll .byExpression (requests.map Request.call)).records query with
  | error fault =>
    rw [run_findWith_of_error none none hsearch, hplain] at hrunPlain
    cases hrunPlain
  | ok found =>
    obtain ⟨hits, hrun, hrecords, hfiles⟩ :=
      hagrees.exists_hits FilesTables.obliging none hsearch
    rw [run_findWith_none none hsearch, hplain] at hrunPlain
    rw [hrun] at hrunHits
    cases hrunPlain
    refine ⟨hits, hrunHits, ?_, hfiles⟩
    rw [hrecords, List.map_map]
    exact (List.map_id' found).symm

end ServedBy

end Shelf

end MetadataCatalog
