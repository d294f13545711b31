import MetadataCatalog.Proofs.Catalog.Mirroring
import MetadataCatalog.Proofs.Catalog.Register
import MetadataCatalog.Proofs.Catalog.Searching

/-!
# Shelves

A shelf is what ingesting and finding work on: the five tables, and the records beside them. An
ingest writes to both, first to the tables, and can fail at either. So a dataset can be registered
without a record, but every record names a dataset that is registered under the number that the
record carries.

- **Keepers**: the tables and the records of a shelf as keepers, with any refusals
  (`Shelf.datasetKeeper`, `Shelf.recordKeeper`).
- **Agreement**: a shelf agrees with a register when its tables are those of the register and its
  records name registered datasets (`Shelf.Agrees`).
- **One call** takes a shelf that agrees with a register to one that agrees with the register and
  what the call has committed (`Agrees.after`).
- **A run** on an empty shelf, by induction, leads to a shelf that agrees with all that was
  committed (`Agrees.afterAll`), and there every record that is found has its files
  (`afterAll_empty`).
-/

namespace MetadataCatalog

/-! ## §1 Keepers -/

/-- How records are searched. What is found is among the records. -/
structure SearchMethod where
  search : Collection → String → Except Fault (List CatalogRecord)
  mem_of_search : ∀ {c query found}, search c query = .ok found → ∀ r ∈ found, r ∈ c

/-- The search by match expressions. -/
def SearchMethod.byExpression : SearchMethod where
  search := Collection.search
  mem_of_search := fun h _ hr => Collection.mem_of_search h hr

/-- The five tables, and the records beside them. -/
structure Shelf where
  tables : FilesTables
  records : Collection
  deriving DecidableEq, Repr

namespace Shelf

/-- The shelf without datasets and records. -/
def empty : Shelf := ⟨.empty, []⟩

/-- The tables of a shelf as a keeper of datasets, when some statements are refused. -/
def datasetKeeper (refuses : FilesTables.Refuses) : DatasetKeeper Shelf where
  insertDataset d files := do
    let shelf ← get
    let (outcome, tables) := shelf.tables.insertDataset refuses d files
    set { shelf with tables }
    Work.ofExcept outcome
  findFiles d := do return (← get).tables.findFiles? d

/-- The records of a shelf as a keeper of records, which may refuse to take in one more. -/
def recordKeeper (method : SearchMethod) (refusal : Option Fault) : RecordKeeper Shelf where
  insert r := do
    match refusal with
    | some fault => throw fault
    | none =>
      let shelf ← get
      let (records, number) := shelf.records.insert r
      set { shelf with records }
      return number
  search query := do Work.ofExcept (method.search (← get).records query)

/-! ## §2 Calls -/

/-- An ingest of a dataset that was made from its parts, with what is refused during it, or a
find. -/
inductive Call where
  | ingest (d : Dataset) (made : ∃ experiment processing tier,
        Dataset.ofParts experiment processing tier = .ok d)
      (text : String) (files : List String) (refuses : FilesTables.Refuses)
      (refusal : Option Fault)
  | find (query : String) (withFiles : Bool)

/-- What a call commits to the tables: the dataset of an ingest with its files, if the transaction
succeeds. -/
def committed (shelf : Shelf) : Call → Register
  | .ingest d _ _ files refuses _ =>
    match (shelf.tables.insertDataset refuses d files).1 with
    | .ok _ => [(d, files)]
    | .error _ => []
  | .find _ _ => []

/-- What a call adds to the records: the record of an ingest, if neither of its parts fails. -/
def recorded (shelf : Shelf) : Call → List CatalogRecord
  | .ingest d _ text files refuses refusal =>
    match (shelf.tables.insertDataset refuses d files).1, refusal with
    | .ok n, none => [⟨text, d.text, n⟩]
    | _, _ => []
  | .find _ _ => []

variable (method : SearchMethod)

/-- The shelf after a call, whether it succeeds or not. -/
def after (shelf : Shelf) : Call → Shelf
  | .ingest d _ text files refuses refusal =>
    ((ingestWith (recordKeeper method refusal) (datasetKeeper refuses) d text files).run shelf).2
  | .find query withFiles =>
    let datasets := if withFiles then some (datasetKeeper FilesTables.obliging) else none
    ((findWith (recordKeeper method none) datasets query).run shelf).2

/-- The shelf after calls one after the other. -/
def afterAll (shelf : Shelf) (calls : List Call) : Shelf :=
  calls.foldl (after method) shelf

/-- What calls commit to the tables one after the other. -/
def committedBy (shelf : Shelf) : List Call → Register
  | [] => []
  | call :: rest => shelf.committed call ++ committedBy (shelf.after method call) rest

/-- What calls add to the records one after the other. -/
def recordedBy (shelf : Shelf) : List Call → List CatalogRecord
  | [] => []
  | call :: rest => shelf.recorded call ++ recordedBy (shelf.after method call) rest

/-! ## §3 Agreement -/

/-- The tables are those of the register, and every record names a dataset that is registered under
the number of the record. -/
structure Agrees (shelf : Shelf) (r : Register) : Prop where
  tables : shelf.tables = r.tables
  records : ∀ record ∈ shelf.records, ∃ d n, Dataset.ofText record.dataset = .ok d ∧
    r.number? d = some n ∧ record.datasetId = n

theorem empty_agrees : empty.Agrees [] where
  tables := rfl
  records := fun _ h => nomatch h

namespace Agrees

variable {shelf : Shelf} {r : Register}

/-- Registering a dataset leaves the records with the datasets that they name. -/
theorem registered (h : shelf.Agrees r) (d : Dataset) (files : List String) :
    ({ shelf with tables := shelf.tables.registered d files } : Shelf).Agrees
      (r ++ [(d, files)]) where
  tables := by rw [h.tables, Register.registered_tables]
  records := by
    intro record hrecord
    obtain ⟨e, n, htext, hnumber, hid⟩ := h.records record hrecord
    -- its dataset keeps the number that it had
    have hmem := Register.mem_datasets_of_number? hnumber
    exact ⟨e, n, htext, (Register.number?_append_of_mem hmem _).trans hnumber, hid⟩

/-- A further record may name any registered dataset. -/
theorem inserted (h : shelf.Agrees r) {record : CatalogRecord} {d : Dataset} {n : Nat}
    (htext : Dataset.ofText record.dataset = .ok d) (hnumber : r.number? d = some n)
    (hid : record.datasetId = n) :
    ({ shelf with records := shelf.records ++ [record] } : Shelf).Agrees r where
  tables := h.tables
  records := by
    intro other hother
    rcases List.mem_append.mp hother with hold | hnew
    · exact h.records other hold
    · rw [List.mem_singleton] at hnew
      subst hnew
      exact ⟨d, n, htext, hnumber, hid⟩

end Agrees

/-! ## §4 Ingesting -/

section Ingesting

variable (refuses : FilesTables.Refuses) (refusal : Option Fault) (shelf : Shelf) (d : Dataset)
  (text : String) (files : List String)

theorem run_insertDataset :
    ((datasetKeeper refuses).insertDataset d files).run shelf =
      ((shelf.tables.insertDataset refuses d files).1,
        { shelf with tables := (shelf.tables.insertDataset refuses d files).2 }) := rfl

/-- If the transaction fails, the shelf is as before. -/
theorem run_ingestWith_of_error
    (h : shelf.tables.insertDataset refuses d files = (.error .database, shelf.tables)) :
    (ingestWith (recordKeeper method refusal) (datasetKeeper refuses) d text files).run shelf =
      (.error .database, shelf) := by
  have hrun := run_insertDataset refuses shelf d files
  rw [h] at hrun
  exact Work.run_bind_error hrun _

/-- If it succeeds, the dataset stays registered, and a record follows unless that is refused. -/
theorem run_ingestWith_of_ok {n : Nat} {tables : FilesTables}
    (h : shelf.tables.insertDataset refuses d files = (.ok n, tables)) :
    ((ingestWith (recordKeeper method refusal) (datasetKeeper refuses) d text files).run shelf).2 =
      ⟨tables, match refusal with
        | some _ => shelf.records
        | none => shelf.records ++ [⟨text, d.text, n⟩]⟩ := by
  have hrun := run_insertDataset refuses shelf d files
  rw [h] at hrun
  unfold ingestWith
  rw [Work.run_bind_ok hrun]
  cases refusal <;> rfl

end Ingesting

/-- An ingest leads to a shelf that agrees with the register and what has been committed: nothing if
the transaction fails, and the dataset with its files if it succeeds, whether a record follows or
not. -/
theorem Agrees.after_ingest {shelf : Shelf} {r : Register} (h : shelf.Agrees r) {d : Dataset}
    (made : ∃ experiment processing tier, Dataset.ofParts experiment processing tier = .ok d)
    (text : String) (files : List String) (refuses : FilesTables.Refuses)
    (refusal : Option Fault) :
    (shelf.after method (.ingest d made text files refuses refusal)).Agrees
      (r ++ shelf.committed (.ingest d made text files refuses refusal)) := by
  rcases FilesTables.insertDataset_eq_or_error refuses shelf.tables d files with hdone | hrefused
  · have hregistered := h.registered d files
    rw [after, run_ingestWith_of_ok method refuses refusal shelf d text files hdone]
    simp only [committed, hdone]
    cases refusal with
    | some fault => exact hregistered
    | none =>
      -- the name that the record carries names the dataset again
      obtain ⟨experiment, processing, tier, hparts⟩ := made
      have htext := (Dataset.isProper_of_ofParts hparts).ofText_text
      refine hregistered.inserted htext (Register.number?_concat_self r d files) ?_
      rw [h.tables, Register.numberFor_tables]
  · rw [after, run_ingestWith_of_error method refuses refusal shelf d text files hrefused]
    simp only [committed, hrefused, List.append_nil]
    exact h

/-! ## §5 Finding -/

section Finding

variable (refuses : FilesTables.Refuses) {shelf : Shelf} {r : Register}

theorem run_filesFor (h : shelf.Agrees r) {dataset : String} {d : Dataset}
    (htext : Dataset.ofText dataset = .ok d) :
    (filesFor (datasetKeeper refuses) dataset).run shelf = (.ok (r.filesFor dataset), shelf) := by
  have hfiles : ((datasetKeeper refuses).findFiles d).run shelf = (.ok (r.files? d), shelf) := by
    rw [← Register.findFiles?_tables, ← h.tables]
    rfl
  have hparse : (Work.ofExcept (Dataset.ofText dataset)).run shelf = (.ok d, shelf) := by
    rw [Work.run_ofExcept, htext]
  unfold filesFor Register.filesFor
  rw [Work.run_bind_ok hparse, Work.run_bind_ok hfiles, htext]
  rfl

/-- Every record that is found gets the files of its dataset. -/
theorem run_hitsOf (h : shelf.Agrees r) {found : List CatalogRecord}
    (hfound : ∀ record ∈ found, record ∈ shelf.records) :
    (hitsOf (some (datasetKeeper refuses)) found).run shelf =
      (.ok (found.map fun record => ⟨record, some (r.filesFor record.dataset)⟩), shelf) := by
  induction found with
  | nil => rfl
  | cons record rest ih =>
    have hrest := ih fun other hother => hfound other (List.mem_cons_of_mem _ hother)
    obtain ⟨d, n, htext, -, -⟩ := h.records record (hfound record List.mem_cons_self)
    have hfiles : (some <$> filesFor (datasetKeeper refuses) record.dataset).run shelf =
        (.ok (some (r.filesFor record.dataset)), shelf) :=
      Work.run_bind_ok (run_filesFor refuses h htext) _
    unfold hitsOf
    rw [Work.run_bind_ok hfiles, Work.run_bind_ok hrest]
    rfl

theorem run_search (refusal : Option Fault) (query : String) (shelf : Shelf) :
    ((recordKeeper method refusal).search query).run shelf =
      (method.search shelf.records query, shelf) := rfl

variable {method} {query : String} {found : List CatalogRecord}

/-- On a shelf that agrees with a register the search decides whether a find succeeds. -/
theorem run_findWith (h : shelf.Agrees r) (refusal : Option Fault)
    (hsearch : method.search shelf.records query = .ok found) :
    (findWith (recordKeeper method refusal) (some (datasetKeeper refuses)) query).run shelf =
      (.ok (found.map fun record => ⟨record, some (r.filesFor record.dataset)⟩), shelf) := by
  have hrun := run_search method refusal query shelf
  rw [hsearch] at hrun
  unfold findWith
  rw [Work.run_bind_ok hrun]
  exact run_hitsOf refuses h (method.mem_of_search hsearch)

theorem run_findWith_none (refusal : Option Fault)
    (hsearch : method.search shelf.records query = .ok found) :
    (findWith (recordKeeper method refusal) none query).run shelf =
      (.ok (found.map fun record => ⟨record, none⟩), shelf) := by
  have hrun := run_search method refusal query shelf
  rw [hsearch] at hrun
  exact MetadataCatalog.run_findWith_none hrun

theorem run_findWith_of_error {fault : Fault} (refusal : Option Fault)
    (datasets : Option (DatasetKeeper Shelf))
    (hsearch : method.search shelf.records query = .error fault) :
    (findWith (recordKeeper method refusal) datasets query).run shelf =
      (.error fault, shelf) := by
  have hrun := run_search method refusal query shelf
  rw [hsearch] at hrun
  exact Work.run_bind_error hrun _

/-- A find changes nothing. -/
theorem after_find (h : shelf.Agrees r) (query : String) (withFiles : Bool) :
    shelf.after method (.find query withFiles) = shelf := by
  unfold after
  cases hsearch : method.search shelf.records query with
  | error fault => exact congrArg Prod.snd (run_findWith_of_error none _ hsearch)
  | ok found =>
    cases withFiles with
    | true => exact congrArg Prod.snd (run_findWith _ h none hsearch)
    | false => exact congrArg Prod.snd (run_findWith_none none hsearch)

end Finding

/-! ## §6 Runs -/

/-- **One call** keeps the agreement. -/
theorem Agrees.after {shelf : Shelf} {r : Register} (h : shelf.Agrees r) (call : Call) :
    (shelf.after method call).Agrees (r ++ shelf.committed call) := by
  cases call with
  | ingest d made text files refuses refusal =>
    exact h.after_ingest method made text files refuses refusal
  | find query withFiles =>
    rw [after_find h]
    simpa [committed] using h

/-- A call adds to the records what it should, and takes none away. -/
theorem Agrees.records_after {shelf : Shelf} {r : Register} (h : shelf.Agrees r) (call : Call) :
    (shelf.after method call).records = shelf.records ++ shelf.recorded call := by
  cases call with
  | ingest d made text files refuses refusal =>
    rcases FilesTables.insertDataset_eq_or_error refuses shelf.tables d files with hdone | hrefused
    · rw [Shelf.after, run_ingestWith_of_ok method refuses refusal shelf d text files hdone]
      simp only [recorded, hdone]
      cases refusal with
      | some fault => exact (List.append_nil _).symm
      | none => rfl
    · rw [Shelf.after, run_ingestWith_of_error method refuses refusal shelf d text files hrefused]
      simp only [recorded, hrefused, List.append_nil]
  | find query withFiles =>
    rw [after_find h]
    exact (List.append_nil _).symm

/-- **A run** keeps the agreement. -/
theorem Agrees.afterAll {shelf : Shelf} {r : Register} (h : shelf.Agrees r) (calls : List Call) :
    (shelf.afterAll method calls).Agrees (r ++ shelf.committedBy method calls) := by
  induction calls generalizing shelf r with
  | nil => simpa [committedBy, Shelf.afterAll] using h
  | cons call rest ih =>
    have hrest := ih (h.after method call)
    rw [List.append_assoc] at hrest
    exact hrest

theorem Agrees.records_afterAll {shelf : Shelf} {r : Register} (h : shelf.Agrees r)
    (calls : List Call) :
    (shelf.afterAll method calls).records = shelf.records ++ shelf.recordedBy method calls := by
  induction calls generalizing shelf r with
  | nil => exact (List.append_nil _).symm
  | cons call rest ih =>
    have hrest := ih (h.after method call)
    rw [h.records_after method call, List.append_assoc] at hrest
    exact hrest

/-- What a record of an agreeing shelf gets is the list of the files that were committed for its
dataset. -/
theorem Agrees.lists_filesFor {shelf : Shelf} {r : Register} (h : shelf.Agrees r)
    {record : CatalogRecord} (hrecord : record ∈ shelf.records) :
    ∃ d, Dataset.ofText record.dataset = .ok d ∧ r.Lists d (r.filesFor record.dataset) := by
  obtain ⟨d, n, htext, hnumber, -⟩ := h.records record hrecord
  obtain ⟨l, hfiles, hlists⟩ := Register.exists_files? (Register.mem_datasets_of_number? hnumber)
  have hfor : r.filesFor record.dataset = l := by
    rw [Register.filesFor, htext]
    simp [hfiles]
  exact ⟨d, htext, hfor ▸ hlists⟩

/-- On a shelf that agrees with a register a find with the files gets every record that the search
finds, in that order, and with it the files of its dataset. -/
theorem Agrees.exists_hits {shelf : Shelf} {r : Register} (h : shelf.Agrees r)
    {method : SearchMethod} (refuses : FilesTables.Refuses) (refusal : Option Fault) {query : String}
    {found : List CatalogRecord} (hsearch : method.search shelf.records query = .ok found) :
    ∃ hits,
      (findWith (recordKeeper method refusal) (some (datasetKeeper refuses)) query).run shelf =
        (.ok hits, shelf) ∧
      hits.map Hit.record = found ∧
      ∀ hit ∈ hits, ∃ d files, Dataset.ofText hit.record.dataset = .ok d ∧
        hit.files = some files ∧ r.Lists d files := by
  refine ⟨_, run_findWith refuses h refusal hsearch, ?_, ?_⟩
  · rw [List.map_map]
    exact List.map_id' found
  · intro hit hhit
    obtain ⟨record, hrecord, rfl⟩ := List.mem_map.mp hhit
    obtain ⟨d, htext, hlists⟩ := h.lists_filesFor (method.mem_of_search hsearch _ hrecord)
    exact ⟨d, _, htext, rfl, hlists⟩

/-- **Records and tables stay together.** After any ingests and finds on an empty shelf, whichever
of the ingests failed and where, the records are those of the ingests that did not fail, and every
record names a dataset that is registered under the number of the record. So what is found with the
files is found as without them, in the same order, and each record comes with the files that were
committed for its dataset, each once. -/
theorem afterAll_empty (calls : List Call) :
    let shelf := empty.afterAll method calls
    let committed := empty.committedBy method calls
    shelf.records = empty.recordedBy method calls ∧
    (∀ record ∈ shelf.records, ∃ d n, Dataset.ofText record.dataset = .ok d ∧
      shelf.tables.datasetId? d = some n ∧ record.datasetId = n) ∧
    ∀ query refuses refusal,
      match method.search shelf.records query with
      | .error fault => ∀ datasets,
        (findWith (recordKeeper method refusal) datasets query).run shelf = (.error fault, shelf)
      | .ok found =>
        (findWith (recordKeeper method refusal) none query).run shelf =
          (.ok (found.map fun record => ⟨record, none⟩), shelf) ∧
        ∃ hits,
          (findWith (recordKeeper method refusal) (some (datasetKeeper refuses)) query).run shelf =
            (.ok hits, shelf) ∧
          hits.map Hit.record = found ∧
          ∀ hit ∈ hits, ∃ d files, Dataset.ofText hit.record.dataset = .ok d ∧
            hit.files = some files ∧ committed.Lists d files := by
  intro shelf committed
  -- one agreement carries all that follows
  have h : shelf.Agrees committed := empty_agrees.afterAll method calls
  refine ⟨empty_agrees.records_afterAll method calls, fun record hrecord => ?_,
    fun query refuses refusal => ?_⟩
  · obtain ⟨d, n, htext, hnumber, hid⟩ := h.records record hrecord
    exact ⟨d, n, htext, by rw [h.tables, Register.datasetId?_tables, hnumber], hid⟩
  · cases hsearch : method.search shelf.records query with
    | error fault => exact fun datasets => run_findWith_of_error refusal datasets hsearch
    | ok found =>
      exact ⟨run_findWith_none refusal hsearch, h.exists_hits refuses refusal hsearch⟩

/-- Two reports on a dataset, then a dataset whose file is refused, and then one whose record is
refused. -/
def scanCalls : List Call :=
  [.ingest ⟨"beam", "raw", "first"⟩ ⟨"beam", "raw", "first", rfl⟩ "silicon wafer" ["a", "b"]
      FilesTables.obliging none,
    .ingest ⟨"beam", "raw", "first"⟩ ⟨"beam", "raw", "first", rfl⟩ "strained film" ["c", "b"]
      FilesTables.obliging none,
    .ingest ⟨"beam", "raw", "second"⟩ ⟨"beam", "raw", "second", rfl⟩ "wafer dust" ["d"]
      (fun _ table => table = .files) none,
    .ingest ⟨"beam", "cooked", "first"⟩ ⟨"beam", "cooked", "first", rfl⟩ "wafer melt" ["e"]
      FilesTables.obliging (some .database)]

/-- The first dataset is committed twice and has both records. The second one is committed not at
all, and the third one stays without a record. What is found of the first one has the files of both
reports. -/
theorem afterAll_empty_scans :
    let shelf := empty.afterAll .byExpression scanCalls
    empty.committedBy .byExpression scanCalls =
        [(⟨"beam", "raw", "first"⟩, ["a", "b"]), (⟨"beam", "raw", "first"⟩, ["c", "b"]),
          (⟨"beam", "cooked", "first"⟩, ["e"])] ∧
      shelf.records = [⟨"silicon wafer", "/beam/raw/first", 1⟩,
        ⟨"strained film", "/beam/raw/first", 1⟩] ∧
      shelf.tables.datasetId? ⟨"beam", "raw", "second"⟩ = none ∧
      shelf.tables.datasetId? ⟨"beam", "cooked", "first"⟩ = some 2 ∧
      (findWith (recordKeeper .byExpression none) (some (datasetKeeper FilesTables.obliging))
          "wafer").run shelf =
        (.ok [⟨⟨"silicon wafer", "/beam/raw/first", 1⟩, some ["a", "b", "c"]⟩], shelf) := by
  intro shelf
  obtain ⟨hrecords, -, -⟩ := afterAll_empty .byExpression scanCalls
  have hagrees : shelf.Agrees (empty.committedBy .byExpression scanCalls) :=
    empty_agrees.afterAll .byExpression scanCalls
  have hnumber (d : Dataset) : shelf.tables.datasetId? d =
      (empty.committedBy .byExpression scanCalls).number? d := by
    rw [hagrees.tables, Register.datasetId?_tables]
  have hsearch : Collection.search shelf.records "wafer" =
      .ok [⟨"silicon wafer", "/beam/raw/first", 1⟩] := by
    have hquery : Expression.ofQuery "wafer" = .ok (.ofTerms ⟨["wafer"], [], []⟩) := by
      decide +kernel
    -- of the two records one has the word
    have hmatch : shelf.records.filter (Terms.Matches ⟨["wafer"], [], []⟩) =
        [⟨"silicon wafer", "/beam/raw/first", 1⟩] := by
      rw [hrecords]
      decide +kernel
    have hselected := Collection.select_perm shelf.records ⟨["wafer"], [], []⟩
    rw [hmatch, List.perm_singleton] at hselected
    rw [Collection.search_of_ofQuery hquery (by decide), if_pos (by decide), hselected]
  have hfound : SearchMethod.byExpression.search shelf.records "wafer" = _ := hsearch
  exact ⟨rfl, hrecords, hnumber _, hnumber _,
    run_findWith FilesTables.obliging hagrees none hfound⟩

end Shelf

end MetadataCatalog
