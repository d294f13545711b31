import MetadataCatalog.Proofs.Catalog.CatalogRuns

/-!
# One file or two

The two addresses in the parameters of a catalog may name one file or two. No run of calls tells
one from the other exactly when the collection does not have the name of one of the five tables
(`one_file_iff`). Such a name is accepted, but in a shared file it belongs to the table or to the
collection, whichever is made first, and the other one fails (`one_file_fails_under_table_name`).
-/

namespace MetadataCatalog

/-! ## §1 Parameters that differ in places -/

/-- Two sets of parameters differ at most in where the halves of the catalog are kept. -/
def Params.SameButPlaces (p q : Params) : Prop :=
  ∀ key, key ≠ .dburi → key ≠ .filesdb → p.given key = q.given key

section Places

variable {p q : Params} (h : p.SameButPlaces q)
include h

theorem Params.SameButPlaces.collectionName_eq : p.collectionName = q.collectionName := by
  rw [collectionName, collectionName, h .dbcoll (by decide) (by decide)]

theorem Params.SameButPlaces.get_eq (key : ParamKey) (hstore : key ≠ .dburi)
    (htables : key ≠ .filesdb) : p.get key = q.get key := by
  rw [get, get, value?, value?, h key hstore htables]

theorem Params.SameButPlaces.dataset_eq : p.dataset = q.dataset := by
  rw [dataset, dataset, h.get_eq .experiment (by decide) (by decide),
    h.get_eq .processing (by decide) (by decide), h.get_eq .tier (by decide) (by decide)]

variable {initial : Files} {P Q : Placement} (hp : p.KeptAt initial P) (hq : q.KeptAt initial Q)
include hp hq

/-- The same keys are there: both sets have the two addresses. -/
theorem Params.SameButPlaces.isSome_value? (key : ParamKey) :
    (p.value? key).isSome = (q.value? key).isSome := by
  by_cases hstore : key = .dburi
  · rw [hstore, hp.isSome_dburi, hq.isSome_dburi]
  · by_cases htables : key = .filesdb
    · rw [htables, hp.isSome_filesdb, hq.isSome_filesdb]
    · rw [value?, value?, h key hstore htables]

/-- What an ingest takes in is the same, up to the words in which it fails. -/
theorem Params.SameButPlaces.outline_intake :
    outline (p.intake initial) = outline (q.intake initial) := by
  have hkeys : outline (p.require ingestKeys) = outline (q.require ingestKeys) :=
    outline_require_of_isSome fun key _ => h.isSome_value? hp hq key
  unfold intake
  rw [h.get_eq .fname (by decide) (by decide), h.get_eq .path (by decide) (by decide),
    h.dataset_eq]
  exact outline_bind_congr hkeys _

/-! ## §2 Sharing a file -/

/-- **One file serves as well as two** for every run of calls exactly when the collection does not
have the name of one of the five tables. -/
theorem one_file_iff (hone : P .store = P .tables) (htwo : Q .store ≠ Q .tables) :
    (∀ calls, answers p initial calls = answers q initial calls) ↔
      ∀ table, CatalogTable.name table ≠ Text.lowerAscii p.collectionName := by
  have hshared : P.shared = true := decide_eq_true hone
  have hapart : Q.shared = false := decide_eq_false htwo
  -- both runs start from the empty cabinet and differ in nothing but whether it is shared
  have hruns (calls : List CatalogCall) : answers p initial calls = answers q initial calls ↔
      Cabinet.answers true p.collectionName (p.intake initial) .empty calls =
        Cabinet.answers false p.collectionName (p.intake initial) .empty calls := by
    rw [answers_eq hp hp.room.shows_empty, answers_eq hq hq.room.shows_empty, hshared, hapart,
      ← h.collectionName_eq, ← Cabinet.answers_congr (h.outline_intake hp hq)]
  constructor
  · intro hsame table hclash
    exact Cabinet.answers_ne_of_clash hclash ((hruns _).mp (hsame _))
  · intro hfree calls
    exact (hruns calls).mpr (Cabinet.splits_empty.answers_eq hfree calls)

end Places

/-- In a new catalog a collection with the name of a table can be opened. -/
theorem exists_run_ofParams_of_clash {p : Params} {initial : Files} {P : Placement}
    (hkept : p.KeptAt initial P) {table : CatalogTable}
    (h : table.name = Text.lowerAscii p.collectionName) :
    ∃ store w, (Store.ofParams p).run (.ofFiles initial) = (.ok store, w) := by
  have hopen : P.Open initial [] (.ofFiles initial) .empty :=
    ⟨hkept.room.shows_empty, nofun, nofun⟩
  have hcabinet : (Cabinet.openStore P.shared p.collectionName).run .empty = (.ok (), _) :=
    Cabinet.run_openStore (Cabinet.check_of_clash h) (Cabinet.openCollection_new h)
  -- what is done on the files is done on the cabinet, and there it does not fail
  rcases ofParams_matches [] hkept _ _ hopen with
    ⟨fault, _, _, _, hfails, -⟩ | ⟨store, _, w, _, hrun, -⟩
  · cases hfails.symm.trans hcabinet
  · exact ⟨store, w, hrun⟩

/-! ## §3 A new catalog -/

/-- A working directory with a note and a scan, and nothing else. -/
def noteSite : Files :=
  .folder [("tmp", .folder [("", .folder [("note", .file (.text "silicon wafer")),
    ("raw", .folder [("scan", .file (.text ""))])])])]

/-- The parameters of the site, for a collection of the given name, in the file of the tables. -/
def oneFileParams (name : Option String) : Params :=
  ((siteParams "sqlite://catalog.db").set .filesdb (some "catalog.db")).set .dbcoll name

/-- The same parameters for a collection in a file of its own. -/
def twoFileParams (name : Option String) : Params :=
  (siteParams "sqlite://meta.db").set .dbcoll name

/-- Each half of a catalog is kept under a name in the working directory. -/
def Placement.ofNames (store tables : String) : Placement
  | .store => FileTree.workingPlace ++ [store]
  | .tables => FileTree.workingPlace ++ [tables]

section Site

open FileTree (workingPlace)

/-- A plain name that nothing has reaches its place. -/
theorem Path.IsPlain.reaches {name : String} (h : Path.IsPlain name) {initial : Files}
    (hwork : initial.HasWorkingFolder) (hnone : initial.at? (workingPlace ++ [name]) = none) :
    (Address.ofPath name).Reaches initial (workingPlace ++ [name]) where
  file := h.file
  make := rfl
  changeable := rfl
  model := rfl
  way := by
    show initial.placeOf name ≠ .nowhere
    rw [h.placeOf_free hnone]
    exact nofun
  place := h.databasePlace?_eq hwork fun target => by simp [FileTree.kindAt?, hnone]

variable {store tables : String}
  (hnames : store = "catalog.db" ∧ tables = "catalog.db" ∨ store = "meta.db" ∧ tables = "files.db")
include hnames

theorem isPlain_names : Path.IsPlain store ∧ Path.IsPlain tables := by
  rcases hnames with ⟨rfl, rfl⟩ | ⟨rfl, rfl⟩ <;> exact ⟨by decide +kernel, by decide +kernel⟩

theorem isRoom_site : (Placement.ofNames store tables).IsRoom noteSite where
  work := ⟨_, rfl⟩
  nothing half := by
    rcases hnames with ⟨rfl, rfl⟩ | ⟨rfl, rfl⟩ <;> cases half <;> rfl
  folder half := by
    cases half <;> exact ⟨_, rfl⟩
  free half side _ := by
    obtain ⟨hstore, htables⟩ := isPlain_names hnames
    have hnone : noteSite.at? (workingPlace ++ [side.name store]) = none ∧
        noteSite.at? (workingPlace ++ [side.name tables]) = none := by
      rcases hnames with ⟨rfl, rfl⟩ | ⟨rfl, rfl⟩ <;> cases side <;> exact ⟨rfl, rfl⟩
    cases half
    · exact hstore.hasFree ⟨_, rfl⟩ hnone.1
    · exact htables.hasFree ⟨_, rfl⟩ hnone.2
  apart half other side _ := by
    rcases hnames with ⟨rfl, rfl⟩ | ⟨rfl, rfl⟩ <;> cases half <;> cases other <;> cases side <;>
      decide

/-- The note and the scan are apart from the databases. -/
theorem others_site {tree : Files} (h : (Placement.ofNames store tables).Regains noteSite tree) :
    tree.at? ["tmp", "", "note"] = noteSite.at? ["tmp", "", "note"] ∧
      tree.at? ["tmp", "", "raw"] = noteSite.at? ["tmp", "", "raw"] := by
  constructor <;> refine h.others _ fun half => ?_ <;>
    rcases hnames with ⟨rfl, rfl⟩ | ⟨rfl, rfl⟩ <;> cases half <;> decide

/-- At the site the catalog is kept under the two names. -/
theorem keptAt_site {p : Params} (hstore : p.storePath? = some store)
    (htables : p.get .filesdb = .ok tables) (hkeys : p.require ingestKeys = .ok ())
    (hfname : p.get .fname = .ok "note") (hpath : p.get .path = .ok "raw")
    (hdataset : p.dataset = .ok siteDataset) :
    p.KeptAt noteSite (Placement.ofNames store tables) where
  room := isRoom_site hnames
  store := ⟨store, _, hstore, (isPlain_names hnames).1.address,
    (isPlain_names hnames).1.reaches ⟨_, rfl⟩ ((isRoom_site hnames).nothing .store)⟩
  tables := ⟨tables, _, htables, (isPlain_names hnames).2.address,
    (isPlain_names hnames).2.reaches ⟨_, rfl⟩ ((isRoom_site hnames).nothing .tables)⟩
  undisturbed tree htree := by
    -- an ingest reads nothing but the note and the scan
    obtain ⟨hnote, hraw⟩ := others_site hnames htree
    rw [intake_of_note hkeys hfname hpath hdataset hnote hraw,
      intake_of_note hkeys hfname hpath hdataset rfl rfl]

end Site

theorem keptAt_oneFile (name : Option String) :
    (oneFileParams name).KeptAt noteSite (.ofNames "catalog.db" "catalog.db") :=
  keptAt_site (.inl ⟨rfl, rfl⟩) rfl rfl rfl rfl rfl rfl

theorem keptAt_twoFile (name : Option String) :
    (twoFileParams name).KeptAt noteSite (.ofNames "meta.db" "files.db") :=
  keptAt_site (.inr ⟨rfl, rfl⟩) rfl rfl rfl rfl rfl rfl

theorem sameButPlaces_site (name : Option String) :
    (oneFileParams name).SameButPlaces (twoFileParams name) := by
  intro key hstore htables
  cases key <;> first | rfl | contradiction

/-- An ingest at the site takes in the note with the scan. -/
theorem intake_site (name : Option String) :
    (oneFileParams name).intake noteSite =
        .ok (some ⟨siteDataset, "silicon wafer", ["raw/scan"]⟩) ∧
      (twoFileParams name).intake noteSite =
        .ok (some ⟨siteDataset, "silicon wafer", ["raw/scan"]⟩) :=
  ⟨intake_of_note rfl rfl rfl rfl rfl rfl, intake_of_note rfl rfl rfl rfl rfl rfl⟩

/-- Under the default name one file serves as well as two. -/
theorem one_file_iff_site :
    (oneFileParams none).KeptAt noteSite (.ofNames "catalog.db" "catalog.db") ∧
      (twoFileParams none).KeptAt noteSite (.ofNames "meta.db" "files.db") ∧
      (oneFileParams none).SameButPlaces (twoFileParams none) ∧
      answers (oneFileParams none) noteSite [.ingest, .find "wafer" true] =
        [.ok (.report (some siteReport)), .ok (.hits [⟨siteRecord, some ["raw/scan"]⟩])] ∧
      ∀ calls, answers (oneFileParams none) noteSite calls =
        answers (twoFileParams none) noteSite calls := by
  have hone := keptAt_oneFile none
  have htwo := keptAt_twoFile none
  have hsame := sameButPlaces_site none
  have hall : ∀ table ∈ CatalogTable.all, table.name ≠ Text.lowerAscii "metadata" := by decide
  have hfree (table : CatalogTable) : table.name ≠ Text.lowerAscii "metadata" :=
    hall table table.mem_all
  refine ⟨hone, htwo, hsame, ?_, (one_file_iff hsame hone htwo rfl (by decide)).mpr hfree⟩
  rw [answers_eq hone hone.room.shows_empty, (intake_site none).1]
  decide +kernel

/-- **Under the name of a table** a collection and the five tables get in each other's way where
they share a file: an ingest fails there, and succeeds where each has a file of its own. -/
theorem one_file_fails_under_table_name :
    (oneFileParams (some "files")).KeptAt noteSite (.ofNames "catalog.db" "catalog.db") ∧
      (twoFileParams (some "files")).KeptAt noteSite (.ofNames "meta.db" "files.db") ∧
      (oneFileParams (some "files")).SameButPlaces (twoFileParams (some "files")) ∧
      (oneFileParams (some "files")).NamesCollection ∧
      (∃ store w, (Store.ofParams (oneFileParams (some "files"))).run (.ofFiles noteSite) =
        (.ok store, w)) ∧
      answers (oneFileParams (some "files")) noteSite [.ingest] = [.error (.database, none)] ∧
      answers (twoFileParams (some "files")) noteSite [.ingest] =
        [.ok (.report (some siteReport))] := by
  have hone := keptAt_oneFile (some "files")
  have htwo := keptAt_twoFile (some "files")
  have hclash : CatalogTable.files.name = Text.lowerAscii "files" := by decide
  refine ⟨hone, htwo, sameButPlaces_site _, Cabinet.check_of_clash hclash,
    exists_run_ofParams_of_clash hone hclash, ?_, ?_⟩
  · rw [answers_eq hone hone.room.shows_empty, (intake_site _).1]
    decide +kernel
  · rw [answers_eq htwo htwo.room.shows_empty, (intake_site _).2]
    decide +kernel

end MetadataCatalog
