import MetadataCatalog.Catalog.Database
import MetadataCatalog.Proofs.Catalog.Transactions

/-!
# What a database keeps

A database has room for collections and for the five tables. What is asked of a collection that it
has is asked of the records in it, and what is asked of tables that it `Keeps` is asked of those
tables. Neither is disturbed by a change of the other.
-/

namespace MetadataCatalog

namespace CatalogTable

theorem mem_all (table : CatalogTable) : table ∈ all := by
  cases table with
  | names part => cases part <;> decide
  | datasets => decide
  | files => decide

theorem ofName_name (table : CatalogTable) : ofName table.name = .ok table :=
  (by decide : ∀ table ∈ all, ofName table.name = .ok table) table table.mem_all

end CatalogTable

namespace Database

variable {db : Database}

/-! ## §1 Collections -/

section Collections

variable {name : String} {c : Collection}

/-- Other records in one collection leave the names of all collections as they are. -/
theorem collection?_withCollection_map (db : Database) (name : String) (records : Collection)
    (other : String) :
    (db.withCollection name records).collection? other =
      (db.collection? other).map fun old =>
        if Text.lowerAscii other = Text.lowerAscii name then records else old := by
  unfold collection? withCollection
  rw [List.find?_map]
  -- the keys are the same as before, so the search stops at the same place
  show Option.map Prod.snd (Option.map _ (db.collections.find? (·.1 = Text.lowerAscii other))) = _
  cases hfind : db.collections.find? (·.1 = Text.lowerAscii other) with
  | none => rfl
  | some entry =>
    have hkey : entry.1 = Text.lowerAscii other := by simpa using List.find?_some hfind
    simp only [Option.map_some, hkey]

theorem collection?_withCollection (h : db.collection? name = some c) (records : Collection) :
    (db.withCollection name records).collection? name = some records := by
  rw [collection?_withCollection_map, h, Option.map_some, if_pos rfl]

theorem covered_withCollection (db : Database) (name : String) (records : Collection)
    (table : CatalogTable) : (db.withCollection name records).covered table = db.covered table := by
  unfold covered hasCollection
  rw [collection?_withCollection_map, Option.isSome_map]

theorem insertRecord_of_collection? (h : db.collection? name = some c) (r : CatalogRecord) :
    db.insertRecord name r = (.ok (c.length + 1), db.withCollection name (c ++ [r])) := by
  rw [insertRecord, h]
  rfl

/-- A search in a collection of a name that the database goes along with is a search among its
records. -/
theorem search_of_service (h : db.collection? name = some c)
    (hname : CollectionName.service name = .full) (query : String) :
    db.search name query = c.search query := by
  unfold search Collection.search Collection.expressionOf
  rw [h, hname]
  cases Expression.ofQuery query with
  | error fault => rfl
  | ok e => rfl

/-- A search that finds something is one among the records of a collection, of a name that the
database goes along with. -/
theorem exists_of_search {query : String} {found : List CatalogRecord}
    (h : db.search name query = .ok found) {r : CatalogRecord} (hr : r ∈ found) :
    ∃ c, db.collection? name = some c ∧ CollectionName.service name = .full ∧
      c.search query = .ok found := by
  unfold search at h
  obtain ⟨_, -, h⟩ := exists_of_bind_eq_ok h
  split at h
  · next c hc hname => exact ⟨c, hc, hname, h⟩
  · cases h
    cases hr
  · -- of such a name a search must not find anything
    split at h
    · cases h
    · next hnot =>
      cases found with
      | nil => cases hr
      | cons first more => exact absurd h (hnot first more)
  · cases h

/-- Where no collection is, one of a name that is not that of a table is made. -/
theorem openCollection_of_empty (hempty : db.collections = [])
    (hname : CollectionName.service name = .full)
    (hfree : ∀ table, CatalogTable.name table ≠ Text.lowerAscii name) :
    db.openCollection name = .ok { db with collections := [(Text.lowerAscii name, [])] } := by
  have hnone : ∀ other, db.hasCollection other = false := by
    intro other
    rw [hasCollection, collection?, hempty]
    rfl
  -- the name could still be that of a table
  have hunused : db.inUse (Text.lowerAscii name) = false := by
    simp [inUse, isInner, hnone, hempty, hfree]
  unfold openCollection
  simp [hname, hunused, hnone, hempty]

/-- In a database without contents a collection of any name is made that the database goes along with,
be it only so far. -/
theorem openCollection_empty (name : String) :
    empty.openCollection name = if CollectionName.service name = .none then .error .database
      else .ok ⟨[(Text.lowerAscii name, [])], none⟩ := by
  have hunused : inUse ⟨[], none⟩ (Text.lowerAscii name) = false := rfl
  have hfree : ∀ other, hasCollection ⟨[], none⟩ other = false := fun _ => rfl
  unfold openCollection
  simp [empty, hunused, hfree]

/-- What is opened is there already, or an empty collection is made. -/
theorem eq_of_openCollection {new : Database} (h : db.openCollection name = .ok new) :
    new = db ∨
      new = { db with collections := db.collections ++ [(Text.lowerAscii name, [])] } := by
  unfold openCollection at h
  dsimp only at h
  split at h
  · cases h
  · split at h
    · cases h
      exact .inl rfl
    · split at h
      · cases h
      · cases h
        exact .inr rfl

theorem collection?_of_single (hsingle : db.collections = [(Text.lowerAscii name, c)]) :
    db.collection? name = some c := by
  rw [collection?, hsingle]
  simp

end Collections

/-- The tables are named in small letters. -/
theorem lowerAscii_tableName (table : CatalogTable) : Text.lowerAscii table.name = table.name :=
  (by decide : ∀ table ∈ CatalogTable.all, Text.lowerAscii table.name = table.name) table
    table.mem_all

theorem uncovered_of_forall
    (h : ∀ entry ∈ db.collections, ∀ table, CatalogTable.name table ≠ entry.1)
    (table : CatalogTable) : db.covered table = false := by
  have hnone : db.collections.find? (·.1 = Text.lowerAscii table.name) = none := by
    rw [List.find?_eq_none, lowerAscii_tableName]
    intro entry hentry
    simpa using fun heq => h entry hentry table heq.symm
  rw [covered, hasCollection, collection?, hnone]
  rfl

/-! ## §2 The five tables -/

/-- The five tables are those given, and no collection covers them. -/
structure Keeps (db : Database) (t : FilesTables) : Prop where
  catalog : db.catalog = some t
  uncovered : ∀ table, db.covered table = false

/-- Opening makes empty tables if there are none. -/
theorem keeps_openCatalog (huncovered : ∀ table, db.covered table = false) :
    db.openCatalog.Keeps db.tables where
  catalog := rfl
  uncovered := huncovered

namespace Keeps

variable {t : FilesTables}

theorem tables (h : db.Keeps t) : db.tables = t := by
  rw [Database.tables, h.catalog, Option.getD_some]

theorem refuses (h : db.Keeps t) : db.refuses = FilesTables.obliging := by
  funext _ table
  exact h.uncovered table

theorem withCatalog (h : db.Keeps t) (later : FilesTables) :
    { db with catalog := some later : Database }.Keeps later where
  catalog := rfl
  uncovered := h.uncovered

theorem withCollection (h : db.Keeps t) (name : String) (records : Collection) :
    (db.withCollection name records).Keeps t where
  catalog := h.catalog
  uncovered table := (covered_withCollection db name records table).trans (h.uncovered table)

/-- Every statement of a registration is carried out. -/
theorem insertDataset (h : db.Keeps t) (d : Dataset) (files : List String) :
    db.insertDataset d files =
      (.ok (t.numberFor d), { db with catalog := some (t.registered d files) }) := by
  rw [Database.insertDataset, h.tables, h.refuses, FilesTables.insertDataset_obliging]

theorem datasetId (h : db.Keeps t) (d : Dataset) : db.datasetId d = .ok (t.datasetId? d) := by
  have hnone : ¬ (CatalogTable.all.any fun table => table ≠ .files && db.covered table) = true := by
    simp [h.uncovered]
  rw [Database.datasetId, if_neg hnone, h.tables]

theorem findFiles (h : db.Keeps t) (d : Dataset) : db.findFiles d = .ok (t.findFiles? d) := by
  unfold Database.findFiles FilesTables.findFiles?
  rw [h.datasetId]
  cases t.datasetId? d with
  | none => rfl
  | some number =>
    simp only [h.uncovered, h.tables, Option.map_some]
    rfl

theorem count (h : db.Keeps t) (table : CatalogTable) : db.count table = t.count table := by
  have hnone : db.collection? table.name = none := by
    simpa [covered, hasCollection] using h.uncovered table
  rw [Database.count, hnone, h.tables]

end Keeps

end Database

end MetadataCatalog
