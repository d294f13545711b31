import MetadataCatalog.Proofs.Catalog.Databases
import MetadataCatalog.Proofs.Catalog.Intakes
import MetadataCatalog.Proofs.Catalog.Mirroring

/-!
# Cabinets

The collections and the five tables are the two halves of a catalog. A cabinet says which database
each half is in, which may be one database for both. Every call to a catalog is work on its cabinet
(`CatalogCall.onCabinet`).

Whether the halves share a database makes no difference to any call (`Cabinet.call_mirrors`), unless
the collection has the name of one of the five tables. Then the first search after the tables have
been made fails in a shared database and succeeds in two (`Cabinet.answers_ne_of_clash`).
-/

namespace MetadataCatalog

/-! ## §1 Halves of a database -/

/-- The halves of a catalog: the collections, and the five tables. -/
inductive Half where
  | store
  | tables
  deriving DecidableEq, Repr

theorem Half.eq_tables_of_ne {half : Half} (h : half ≠ .store) : half = .tables := by
  cases half with
  | store => exact absurd rfl h
  | tables => rfl

theorem Half.eq_store_of_ne {half : Half} (h : half ≠ .tables) : half = .store := by
  cases half with
  | store => rfl
  | tables => exact absurd rfl h

namespace Database

/-- A database without what belongs to the other half. -/
def half (db : Database) : Half → Database
  | .store => { db with catalog := none }
  | .tables => { db with collections := [] }

/-- No collection stands where one of the five tables is looked for. -/
def Uncovered (db : Database) : Prop :=
  ∀ table, db.covered table = false

end Database

/-- A change that concerns one half only: it comes out the same without the other half, and leaves
that as it is. -/
structure Half.Confines {α : Type} (half : Half)
    (change : Database → Except Fault α × Database) : Prop where
  outcome : ∀ db : Database, db.Uncovered → (change (db.half half)).1 = (change db).1
  own : ∀ db : Database, db.Uncovered → (change (db.half half)).2 = (change db).2.half half
  other : ∀ (db : Database) other, other ≠ half → (change db).2.half other = db.half other
  uncovered : ∀ db : Database, db.Uncovered → (change db).2.Uncovered

/-- A question that concerns one half only has the same answer without the other half. -/
def Half.Answers {α : Type} (half : Half) (ask : Database → Except Fault α) : Prop :=
  ∀ db : Database, db.Uncovered → ask (db.half half) = ask db

namespace Database

variable {db : Database} {name : String}

theorem uncovered_tables (db : Database) : (db.half .tables).Uncovered :=
  uncovered_of_forall fun _ hentry => nomatch hentry

/-- What makes something, or fails and leaves the database as it is, as a change. -/
def making (make : Database → Except Fault Database) (db : Database) :
    Except Fault Unit × Database :=
  match make db with
  | .ok new => (.ok (), new)
  | .error fault => (.error fault, db)

/-! ## §2 Changes of collections -/

theorem confines_insertRecord (name : String) (r : CatalogRecord) :
    Half.store.Confines fun db => db.insertRecord name r := by
  have hsame (db : Database) : (db.half .store).collection? name = db.collection? name := rfl
  constructor
  · intro db _
    simp only [insertRecord, hsame]
    cases db.collection? name <;> rfl
  · intro db _
    simp only [insertRecord, hsame]
    cases db.collection? name <;> rfl
  · intro db other hother
    obtain rfl := Half.eq_tables_of_ne hother
    simp only [insertRecord]
    cases db.collection? name <;> rfl
  · intro db hdb
    simp only [insertRecord]
    cases db.collection? name with
    | none => exact hdb
    | some c => exact fun table => (covered_withCollection _ _ _ table).trans (hdb table)

theorem answers_search (name query : String) :
    Half.store.Answers fun db => db.search name query :=
  fun _ _ => rfl

section Opening

variable (hfree : ∀ table, CatalogTable.name table ≠ Text.lowerAscii name)
include hfree

/-- A name that no table has is in use, or not, whether the tables are there or not. -/
theorem inUse_half (db : Database) :
    (db.half .store).inUse (Text.lowerAscii name) = db.inUse (Text.lowerAscii name) := by
  have hnone : CatalogTable.all.any (·.name = Text.lowerAscii name) = false :=
    List.any_eq_false.mpr fun table _ => by simpa using hfree table
  simp only [inUse, Text.lowerAscii_lowerAscii, hnone, Bool.and_false]
  rfl

theorem openCollection_half (db : Database) :
    (db.half .store).openCollection name = (db.openCollection name).map (·.half .store) := by
  have hsame : (db.half .store).hasCollection = db.hasCollection := rfl
  simp only [openCollection, inUse_half hfree, hsame]
  split
  · rfl
  · split
    · rfl
    · split <;> rfl

theorem confines_openCollection :
    Half.store.Confines (making fun db => db.openCollection name) where
  -- whether the name is in use does not depend on the tables, as none of them has it
  outcome db _ := by
    simp only [making, openCollection_half hfree]
    cases db.openCollection name <;> rfl
  own db _ := by
    simp only [making, openCollection_half hfree]
    cases db.openCollection name <;> rfl
  other db other hother := by
    obtain rfl := Half.eq_tables_of_ne hother
    simp only [making]
    cases hopen : db.openCollection name with
    | error fault => rfl
    | ok new => rcases eq_of_openCollection hopen with rfl | rfl <;> rfl
  uncovered db hdb := by
    simp only [making]
    cases hopen : db.openCollection name with
    | error fault => exact hdb
    | ok new =>
      rcases eq_of_openCollection hopen with rfl | rfl
      · exact hdb
      · intro table
        have hnone : db.collections.find? (·.1 = Text.lowerAscii table.name) = none := by
          simpa [covered, hasCollection, collection?] using hdb table
        have hlast : Text.lowerAscii name ≠ Text.lowerAscii table.name := by
          rw [lowerAscii_tableName]
          exact (hfree table).symm
        simp only [covered, hasCollection, collection?, List.find?_append, hnone]
        simp [hlast]

end Opening

/-! ## §3 Changes of the five tables -/

theorem confines_openCatalog : Half.tables.Confines (making fun db => .ok db.openCatalog) where
  outcome _ _ := rfl
  own _ _ := rfl
  other db other hother := by
    obtain rfl := Half.eq_store_of_ne hother
    rfl
  uncovered _ hdb := hdb

theorem refuses_half {db : Database} (hdb : db.Uncovered) :
    (db.half .tables).refuses = db.refuses := by
  funext _ table
  exact (uncovered_tables db table).trans (hdb table).symm

theorem confines_insertDataset (d : Dataset) (files : List String) :
    Half.tables.Confines fun db => db.insertDataset d files where
  outcome db hdb := by
    simp only [insertDataset, refuses_half hdb]
    rfl
  own db hdb := by
    simp only [insertDataset, refuses_half hdb]
    rfl
  other db other hother := by
    obtain rfl := Half.eq_store_of_ne hother
    rfl
  uncovered _ hdb := hdb

theorem answers_findFiles (d : Dataset) : Half.tables.Answers fun db => db.findFiles d := by
  intro db hdb
  have hcovered : (db.half .tables).covered = db.covered := by
    funext table
    exact (uncovered_tables db table).trans (hdb table).symm
  show (db.half .tables).findFiles d = db.findFiles d
  unfold findFiles datasetId
  rw [hcovered]
  rfl

theorem answers_count (table : CatalogTable) :
    Half.tables.Answers fun db => .ok (db.count table) := by
  intro db hdb
  have hnone : db.collection? table.name = none := by
    simpa [covered, hasCollection] using hdb table
  dsimp only
  rw [count, count, hnone]
  rfl

end Database

/-! ## §4 Work on a cabinet -/

/-- The database that each half is in. -/
abbrev Cabinet := Half → Database

namespace Cabinet

/-- The cabinet of a new catalog. -/
def empty : Cabinet := fun _ => .empty

/-- The cabinet with another database for one half, and for both if they share one. -/
def put (shared : Bool) (c : Cabinet) (half : Half) (db : Database) : Cabinet :=
  fun other => if shared || other = half then db else c other

@[simp]
theorem put_self (shared : Bool) (c : Cabinet) (half : Half) (db : Database) :
    c.put shared half db half = db := by
  simp [put]

/-- A change of the database that one half is in. -/
def change {α : Type} (shared : Bool) (half : Half) (f : Database → Except Fault α × Database) :
    Work Cabinet α :=
  ExceptT.mk fun c => ((f (c half)).1, c.put shared half (f (c half)).2)

/-- A question to the database that one half is in. -/
def ask {α : Type} (half : Half) (f : Database → Except Fault α) : Work Cabinet α :=
  ExceptT.mk fun c => (f (c half), c)

theorem run_ask {α : Type} (half : Half) (f : Database → Except Fault α) (c : Cabinet) :
    (ask half f).run c = (f (c half), c) := rfl

theorem run_change {α : Type} (shared : Bool) (half : Half)
    (f : Database → Except Fault α × Database) (c : Cabinet) :
    (change shared half f).run c = ((f (c half)).1, c.put shared half (f (c half)).2) := rfl

/-- A collection as a keeper of records. -/
def recordKeeper (shared : Bool) (name : String) : RecordKeeper Cabinet where
  insert r := change shared .store fun db => db.insertRecord name r
  search query := ask .store fun db => db.search name query

/-- The five tables as a keeper of datasets. -/
def datasetKeeper (shared : Bool) : DatasetKeeper Cabinet where
  insertDataset d files := change shared .tables fun db => db.insertDataset d files
  findFiles d := ask .tables fun db => db.findFiles d

/-- Opens the collection of a name. -/
def openStore (shared : Bool) (name : String) : Work Cabinet Unit := do
  Work.ofExcept (CollectionName.check name)
  change shared .store (Database.making fun db => db.openCollection name)

/-- Opens the five tables. -/
def openTables (shared : Bool) : Work Cabinet Unit :=
  change shared .tables (Database.making fun db => .ok db.openCatalog)

/-- The numbers of rows of tables. -/
def counts : List CatalogTable → Work Cabinet (List Nat)
  | [] => return []
  | table :: rest => do
    let n ← ask .tables fun db => .ok (db.count table)
    return n :: (← counts rest)

end Cabinet

/-- The calls to a catalog. -/
inductive CatalogCall where
  | init
  | ingest
  | find (query : String) (withFiles : Bool)
  | datasetFiles (dataset : String)

/-- What a call is answered with: the numbers of rows of the new tables, a report if there is one,
the hits of a query, or the files of a dataset. -/
inductive CatalogAnswer where
  | rows (counts : List Nat)
  | report (report : Option Report)
  | hits (hits : List Hit)
  | files (names : List String)
  deriving DecidableEq, Repr

open Cabinet in
/-- A call as work on a cabinet, given the name of the collection and what an ingest takes in. -/
def CatalogCall.onCabinet (shared : Bool) (name : String) (taken : Except Fault (Option Intake)) :
    CatalogCall → Work Cabinet CatalogAnswer
  | .init => do
    openTables shared
    return .rows (← counts CatalogTable.all)
  | .ingest => do
    match ← Work.ofExcept taken with
    | none => return .report none
    | some taken =>
      openStore shared name
      openTables shared
      return .report (some (← ingestWith (recordKeeper shared name) (datasetKeeper shared)
        taken.dataset taken.text taken.files))
  | .find query withFiles => do
    openStore shared name
    if withFiles then openTables shared
    return .hits (← findWith (recordKeeper shared name)
      (if withFiles then some (datasetKeeper shared) else none) query)
  | .datasetFiles dataset => do
    openTables shared
    return .files (← filesFor (datasetKeeper shared) dataset)

/-! ## §5 One database or two -/

namespace Cabinet

/-- In the first cabinet both halves are in one database, in the second each is in one of its own;
and no collection stands in the way of a table. -/
structure Splits (one two : Cabinet) : Prop where
  exists_db : ∃ db : Database,
    db.Uncovered ∧ (∀ half, one half = db) ∧ ∀ half, two half = db.half half

theorem splits_empty : Splits empty empty := by
  refine ⟨.empty, ?_, fun _ => rfl, fun half => ?_⟩
  · exact Database.uncovered_of_forall fun _ hentry => nomatch hentry
  · cases half <;> rfl

/-- A change that concerns one half comes out the same in one database and in two. -/
theorem change_mirrors {α : Type} {half : Half} {f : Database → Except Fault α × Database}
    (h : half.Confines f) : Work.Mirrors Splits (change true half f) (change false half f) := by
  rintro one two ⟨db, hdb, hone, htwo⟩
  refine ⟨one.put true half (f (one half)).2, ?_, (f db).2, h.uncovered db hdb, ?_, ?_⟩
  · rw [run_change, run_change, hone, htwo, h.outcome db hdb]
  · -- a shared database is put in for both halves
    intro other
    rw [put, Bool.true_or, if_pos rfl, hone]
  · -- of two databases that of the other half stays, as `h.other` says it does in the shared one
    intro other
    rw [run_change]
    dsimp only
    rw [put, Bool.false_or]
    by_cases hother : other = half
    · rw [if_pos (decide_eq_true hother), htwo, h.own db hdb, hother]
    · rw [if_neg (by simpa using hother), htwo, h.other db other hother]

/-- A question that concerns one half has the same answer in one database and in two. -/
theorem ask_mirrors {α : Type} {half : Half} {f : Database → Except Fault α} (h : half.Answers f) :
    Work.Mirrors Splits (ask half f) (ask half f) := by
  rintro one two ⟨db, hdb, hone, htwo⟩
  refine ⟨one, ?_, db, hdb, hone, htwo⟩
  rw [run_ask, run_ask, hone, htwo, h db hdb]

section Calls

variable {name : String} (hfree : ∀ table, CatalogTable.name table ≠ Text.lowerAscii name)

theorem openTables_mirrors : Work.Mirrors Splits (openTables true) (openTables false) :=
  change_mirrors Database.confines_openCatalog

theorem counts_mirrors (tables : List CatalogTable) :
    Work.Mirrors Splits (counts tables) (counts tables) := by
  induction tables with
  | nil => exact Work.Mirrors.pure _
  | cons table rest ih =>
    unfold counts
    refine (ask_mirrors (Database.answers_count table)).bind fun n => ?_
    exact ih.bind fun more => Work.Mirrors.pure _

theorem findFiles_mirrors (d : Dataset) :
    Work.Mirrors Splits ((datasetKeeper true).findFiles d) ((datasetKeeper false).findFiles d) :=
  ask_mirrors (Database.answers_findFiles d)

include hfree

theorem openStore_mirrors : Work.Mirrors Splits (openStore true name) (openStore false name) :=
  (Work.Mirrors.ofExcept _).bind fun _ => change_mirrors (Database.confines_openCollection hfree)

/-- **One database or two** make no difference to a call, if the collection does not have the name
of a table. -/
theorem call_mirrors (taken : Except Fault (Option Intake)) (call : CatalogCall) :
    Work.Mirrors Splits (call.onCabinet true name taken) (call.onCabinet false name taken) := by
  cases call with
  | init =>
    refine openTables_mirrors.bind fun _ => ?_
    exact (counts_mirrors _).bind fun _ => Work.Mirrors.pure _
  | ingest =>
    refine (Work.Mirrors.ofExcept taken).bind fun found => ?_
    cases found with
    | none => exact Work.Mirrors.pure _
    | some taken =>
      refine (openStore_mirrors hfree).bind fun _ => openTables_mirrors.bind fun _ => ?_
      have hingest : Work.Mirrors Splits
          (ingestWith (recordKeeper true name) (datasetKeeper true) _ _ _)
          (ingestWith (recordKeeper false name) (datasetKeeper false) _ _ _) := ingestWith_mirrors
        (fun d files => change_mirrors (Database.confines_insertDataset d files))
        (fun r => change_mirrors (Database.confines_insertRecord name r))
        taken.dataset taken.text taken.files
      exact hingest.bind fun _ => Work.Mirrors.pure _
  | find query withFiles =>
    refine (openStore_mirrors hfree).bind fun _ => ?_
    have hfind : Work.Mirrors Splits
        (findWith (recordKeeper true name) (if withFiles then some (datasetKeeper true) else none)
          query)
        (findWith (recordKeeper false name) (if withFiles then some (datasetKeeper false) else none)
          query) := findWith_mirrors withFiles
      (fun query => ask_mirrors (Database.answers_search name query)) (fun _ => findFiles_mirrors)
      query
    have hrest := hfind.bind fun hits => Work.Mirrors.pure (CatalogAnswer.hits hits)
    cases withFiles with
    | true => exact openTables_mirrors.bind fun _ => hrest
    | false => exact hrest
  | datasetFiles dataset =>
    refine openTables_mirrors.bind fun _ => ?_
    exact (filesFor_mirrors findFiles_mirrors dataset).bind fun _ => Work.Mirrors.pure _

end Calls

/-! ## §6 Runs of calls -/

/-- The answers to calls, one after the other, apart from the wording of faults. -/
def answers (shared : Bool) (name : String) (taken : Except Fault (Option Intake)) :
    Cabinet → List CatalogCall → List (Except (Fault.Kind × Option Nat) CatalogAnswer)
  | _, [] => []
  | c, call :: rest =>
    let (outcome, c) := (call.onCabinet shared name taken).run c
    outline outcome :: answers shared name taken c rest

variable {name : String} {taken : Except Fault (Option Intake)}

theorem answers_cons (shared : Bool) (name : String) (taken : Except Fault (Option Intake))
    (c : Cabinet) (call : CatalogCall) (rest : List CatalogCall) :
    answers shared name taken c (call :: rest) =
      outline ((call.onCabinet shared name taken).run c).1 ::
        answers shared name taken ((call.onCabinet shared name taken).run c).2 rest := rfl

/-- **A run** has the same answers in one database and in two, if the collection does not have the
name of a table. -/
theorem Splits.answers_eq {one two : Cabinet} (h : Splits one two)
    (hfree : ∀ table, CatalogTable.name table ≠ Text.lowerAscii name) (calls : List CatalogCall) :
    answers true name taken one calls = answers false name taken two calls := by
  -- on the calls; each of them leads from split cabinets to split cabinets
  induction calls generalizing one two with
  | nil => rfl
  | cons call rest ih =>
    obtain ⟨one', hrun, h'⟩ := call_mirrors hfree taken call one two h
    rw [answers, answers, hrun]
    exact congrArg _ (ih h')

/-- In what words an ingest fails before it takes anything in makes no difference. -/
theorem onCabinet_alike {taken' : Except Fault (Option Intake)}
    (h : outline taken = outline taken') (shared : Bool) (name : String) (call : CatalogCall) :
    (call.onCabinet shared name taken).Alike (call.onCabinet shared name taken') := by
  cases call with
  | ingest => exact (Work.Alike.ofExcept h).bind fun _ => Work.Alike.refl _
  | init => exact Work.Alike.refl _
  | find query withFiles => exact Work.Alike.refl _
  | datasetFiles dataset => exact Work.Alike.refl _

theorem answers_congr {shared : Bool} {taken' : Except Fault (Option Intake)}
    (h : outline taken = outline taken') (c : Cabinet) (calls : List CatalogCall) :
    answers shared name taken c calls = answers shared name taken' c calls := by
  induction calls generalizing c with
  | nil => rfl
  | cons call rest ih =>
    obtain ⟨houtcome, hstate⟩ := onCabinet_alike h shared name call c
    rw [answers_cons, answers_cons, houtcome, hstate, ih]

/-! ## §7 Names of tables -/

/-- A collection can have the name of a table. -/
theorem check_of_clash {table : CatalogTable} (h : table.name = Text.lowerAscii name) :
    CollectionName.check name = .ok () := by
  have hall : ∀ table ∈ CatalogTable.all, CollectionName.check table.name = .ok () := by
    decide +kernel
  refine CollectionName.check_of_lowerAscii ?_
  rw [← h]
  exact hall table table.mem_all

/-- And then a database goes along with it. -/
theorem service_of_clash {table : CatalogTable} (h : table.name = Text.lowerAscii name) :
    CollectionName.service name = .full := by
  have hall : ∀ table ∈ CatalogTable.all, CollectionName.service table.name = .full := by
    decide +kernel
  rw [← CollectionName.service_lowerAscii, ← h]
  exact hall table table.mem_all

theorem run_counts (c : Cabinet) (tables : List CatalogTable) :
    (counts tables).run c = (.ok (tables.map (c .tables).count), c) := by
  induction tables with
  | nil => rfl
  | cons table rest ih =>
    unfold counts
    rw [Work.run_bind_ok (run_ask .tables (fun db => .ok (db.count table)) c), Work.run_bind_ok ih]
    rfl

theorem run_openTables (shared : Bool) (c : Cabinet) :
    (openTables shared).run c = (.ok (), c.put shared .tables (c .tables).openCatalog) := rfl

theorem run_openStore {shared : Bool} {c : Cabinet} {new : Database}
    (hcheck : CollectionName.check name = .ok ())
    (hnew : (c .store).openCollection name = .ok new) :
    (openStore shared name).run c = (.ok (), c.put shared .store new) := by
  unfold openStore
  rw [hcheck, Work.run_bind_ok (Work.run_ofExcept _ c), run_change, Database.making, hnew]

/-- What a find without files does when the collection has been opened. -/
theorem run_find {shared : Bool} {c : Cabinet} {new : Database} {query : String}
    (hcheck : CollectionName.check name = .ok ())
    (hnew : (c .store).openCollection name = .ok new) :
    ((CatalogCall.find query false).onCabinet shared name taken).run c =
      ((new.search name query).map fun found => .hits (found.map fun r => ⟨r, none⟩),
        c.put shared .store new) := by
  have hsearch : ((recordKeeper shared name).search query).run (c.put shared .store new) =
      (new.search name query, c.put shared .store new) := by
    show (((c.put shared .store new) .store).search name query, _) = _
    rw [put_self]
  have hfind := run_findWith_none hsearch
  unfold CatalogCall.onCabinet
  rw [Work.run_bind_ok (run_openStore hcheck hnew), if_neg Bool.false_ne_true]
  cases hfound : new.search name query with
  | error fault =>
    rw [hfound] at hfind
    exact Work.run_bind_error hfind _
  | ok found =>
    rw [hfound] at hfind
    exact Work.run_bind_ok hfind _

section Clash

variable {table : CatalogTable} (h : table.name = Text.lowerAscii name)
include h

/-- In a database with the tables nothing is made under the name of a table. -/
theorem openCollection_of_clash :
    Database.empty.openCatalog.openCollection name = .ok Database.empty.openCatalog := by
  have hused : Database.empty.openCatalog.inUse (Text.lowerAscii name) = true := by
    have hany : CatalogTable.all.any (·.name = Text.lowerAscii name) = true :=
      List.any_eq_true.mpr ⟨table, table.mem_all, decide_eq_true h⟩
    simp only [Database.inUse, Text.lowerAscii_lowerAscii, hany]
    rfl
  simp [Database.openCollection, service_of_clash h, hused]

/-- In a new database a collection is made. -/
theorem openCollection_new :
    Database.empty.openCollection name = .ok ⟨[(Text.lowerAscii name, [])], none⟩ := by
  have hservice : CollectionName.service (Text.lowerAscii name) ≠ .none := by
    rw [CollectionName.service_lowerAscii, service_of_clash h]
    exact nofun
  have hunused : Database.empty.inUse (Text.lowerAscii name) = false := rfl
  have hinner : (CollectionName.innerTables (Text.lowerAscii name)).any
      Database.empty.hasCollection = false := rfl
  unfold Database.openCollection
  dsimp only
  rw [if_neg hservice, hunused, hinner]
  rfl

/-- **A collection with the name of a table** is not there where the table is, so a search fails
after the tables have been made in the same database. In a database of its own it is made, and
nothing is found. -/
theorem answers_ne_of_clash :
    answers true name taken empty [.init, .find "a" false] ≠
      answers false name taken empty [.init, .find "a" false] := by
  have hinit (shared : Bool) : ((CatalogCall.init.onCabinet shared name taken).run empty).2 =
      empty.put shared .tables Database.empty.openCatalog := by
    unfold CatalogCall.onCabinet
    rw [Work.run_bind_ok (run_openTables shared empty), Work.run_bind_ok (run_counts _ _)]
    rfl
  -- the shared database has the tables now, and that of the collection alone is still empty
  have hone : (empty.put true .tables Database.empty.openCatalog .store).openCollection name =
      .ok Database.empty.openCatalog := openCollection_of_clash h
  have htwo : (empty.put false .tables Database.empty.openCatalog .store).openCollection name =
      .ok ⟨[(Text.lowerAscii name, [])], none⟩ := openCollection_new h
  have hcheck := check_of_clash h
  simp only [answers_cons, hinit]
  rw [run_find hcheck hone, run_find hcheck htwo]
  intro heq
  have houtcome := (List.cons.inj (List.cons.inj heq).2).1
  -- the search fails where there is no collection, and succeeds in the new one
  have hfails : ∃ fault, Database.empty.openCatalog.search name "a" = .error fault := by
    have hnone : Database.empty.openCatalog.collection? name = none := rfl
    unfold Database.search
    rw [hnone]
    cases Expression.ofQuery "a" with
    | error fault => exact ⟨fault, rfl⟩
    | ok e => exact ⟨.database, rfl⟩
  have hfinds : ∃ found, (⟨[(Text.lowerAscii name, [])], none⟩ : Database).search name "a" =
      .ok found := by
    have hread : (Collection.expressionOf "a").toBool = true := by decide +kernel
    rw [Database.search_of_service (Database.collection?_of_single rfl) (service_of_clash h),
      Collection.search]
    cases hexpression : Collection.expressionOf "a" with
    | error fault =>
      rw [hexpression] at hread
      cases hread
    | ok e => exact ⟨_, rfl⟩
  obtain ⟨fault, hfails⟩ := hfails
  obtain ⟨found, hfinds⟩ := hfinds
  rw [hfails, hfinds] at houtcome
  cases houtcome

end Clash

end Cabinet

end MetadataCatalog
