import MetadataCatalog.Proofs.Catalog.FoundAgain
import MetadataCatalog.Proofs.Catalog.KeptRows

/-!
# What an ingest takes in

An ingest works in three stages. It finds out what it is to take in without touching anything
(`Params.intake`), opens the collection and the five tables (`openBoth`), and then registers and
adds (`run_ingest`). Until the third stage no row comes or goes: whether there is nothing to take in
or one of the first two stages fails, every database file holds the rows that it held
(`ingest_keeps_rows`).

There is one exception. A file that bears the name of a side file of one of the two databases is
tidied up when that database is opened, and it makes no difference that the file is itself the other
database (`journal_name_loses_rows`).
-/

namespace MetadataCatalog

/-! ## §1 Stages -/

/-- What an ingest takes in: a dataset, the text of its document and its files. -/
structure Intake where
  dataset : Dataset
  text : String
  files : List String
  deriving DecidableEq, Repr

/-- What an ingest is to take in, which is nothing if the document has no text. The parameters are
checked, the dataset is built, the document is read and the folder is listed. -/
def Params.intake (p : Params) (tree : Files) : Except Fault (Option Intake) := do
  p.require ingestKeys
  let document ← p.get .fname
  let dataset ← p.dataset
  let text ← tree.readDocument document
  if Text.isBlankText text then return none
  else
    let folder ← p.get .path
    let files ← tree.listFiles folder
    return some { dataset, text, files }

/-- Opens the collection and the five tables that the parameters name. -/
def openBoth (p : Params) : Action (Store × Connection) := do
  let store ← Store.ofParams p
  let tables ← Connection.tablesOfParams p
  return (store, tables)

/-- Opens what the parameters name, and takes something in. -/
def takeIn (p : Params) (taken : Intake) : Action (Option Report) := do
  let (store, tables) ← openBoth p
  return some (← ingestInto store tables taken.dataset taken.text taken.files)

/-- What an ingest does when it has found out what to take in. -/
def ingestIntake (p : Params) : Option Intake → Action (Option Report)
  | none => return none
  | some taken => takeIn p taken

section Stages

variable {p : Params} {w : Workspace}

/-- What is found out without touching anything can be found out beforehand. -/
theorem Work.run_bind_beforehand {σ α β γ : Type} {m : Work σ α} {s : σ}
    {outcome : Except Fault α} (hm : m.run s = (outcome, s)) {f : α → Work σ β}
    {g : α → Except Fault γ} {next : γ → Work σ β}
    (hf : ∀ a, (f a).run s = (Work.ofExcept (g a) >>= next).run s) :
    (m >>= f).run s = (Work.ofExcept (outcome >>= g) >>= next).run s := by
  cases outcome with
  | error fault => exact run_bind_error hm f
  | ok a => exact (run_bind_ok hm f).trans (hf a)

/-- **The stages of an ingest.** What is to be taken in is found out first. -/
theorem run_ingest (p : Params) (w : Workspace) :
    (ingest p).run w = (Action.ofExcept (p.intake w.files) >>= ingestIntake p).run w := by
  unfold ingest Params.intake
  -- one step of the work for each step of `Params.intake`
  refine Work.run_bind_beforehand rfl fun _ => ?_
  refine Work.run_bind_beforehand rfl fun document => ?_
  refine Work.run_bind_beforehand rfl fun dataset => ?_
  refine Work.run_bind_beforehand rfl fun text => ?_
  split
  · rfl
  · refine Work.run_bind_beforehand rfl fun folder => ?_
    refine Work.run_bind_beforehand rfl fun files => ?_
    show _ = (takeIn p _).run w
    simp only [takeIn, openBoth, bind_assoc, pure_bind]

theorem run_ingest_of_error {fault : Fault} (h : p.intake w.files = .error fault) :
    (ingest p).run w = (.error fault, w) := by
  rw [run_ingest, h]
  rfl

theorem run_ingest_of_none (h : p.intake w.files = .ok none) :
    (ingest p).run w = (.ok none, w) := by
  rw [run_ingest, h]
  rfl

theorem run_ingest_of_some {taken : Intake} (h : p.intake w.files = .ok (some taken)) :
    (ingest p).run w = (takeIn p taken).run w := by
  rw [run_ingest, h]
  rfl

theorem run_takeIn_of_error {w' : Workspace} {fault : Fault} (taken : Intake)
    (h : (openBoth p).run w = (.error fault, w')) :
    (takeIn p taken).run w = (.error fault, w') := by
  unfold takeIn
  exact Work.run_bind_error h _

end Stages

/-! ## §2 Opening -/

section Opening

open Workspace (SameRowsAt)

variable {p : Params} {w w' : Workspace} {place : List String}

/-- On a server nothing is opened, whichever of the parameters is missing. -/
theorem Store.run_ofServer (address : String) (p : Params) (w : Workspace) :
    ∃ fault, (ofServer address p).run w = (.error fault, w) := by
  unfold ofServer
  cases p.require [.dbname, .dbcoll] with
  | error fault => exact ⟨fault, rfl⟩
  | ok _ =>
    cases p.get .dbname with
    | error fault => exact ⟨fault, rfl⟩
    | ok database =>
      cases p.get .dbcoll with
      | error fault => exact ⟨fault, rfl⟩
      | ok collection => exact ⟨.storeUnavailable, rfl⟩

/-- Without the path of a database file nothing is opened. -/
theorem Store.run_ofParams_of_none (h : p.storePath? = none) (w : Workspace) :
    ∃ fault, (Store.ofParams p).run w = (.error fault, w) := by
  unfold Store.ofParams
  cases haddress : p.get .dburi with
  | error fault => exact ⟨fault, rfl⟩
  | ok address =>
    rw [Action.ofExcept, Work.run_bind_ok (Work.run_ofExcept _ w)]
    split
    · exact run_ofServer address p w
    · rw [← Params.storePath?_of_get haddress, h]
      exact ⟨_, rfl⟩

/-- To open the collection keeps the rows in every file that is not beside its database, wherever
it fails. -/
theorem Store.ofParams_keepsRows (hshared : w.WellShared)
    (hbeside : ∀ path c w', p.storePath? = some path →
      (Connection.ofAddress path).run w = (.ok c, w') → ¬ c.Beside place) :
    SameRowsAt place w ((Store.ofParams p).run w).2 := by
  cases hpath : p.storePath? with
  | none =>
    obtain ⟨fault, hrun⟩ := Store.run_ofParams_of_none hpath w
    rw [hrun]
    exact SameRowsAt.refl place w
  | some path =>
    rw [Store.ofParams_of_storePath? hpath]
    refine Connection.ofAddress_bind_keepsRows hshared fun c w₁ hopen => ?_
    have hmake := Connection.make_leads (hbeside path c w₁ hpath hopen)
      (fun db => db.openCollection p.collectionName) Database.sameRows_of_openCollection
    unfold Store.ofConnection
    have hcheck := Work.Leads.ofExcept (R := SameRowsAt place) (SameRowsAt.refl place)
      (CollectionName.check p.collectionName)
    refine hcheck.bind (fun _ _ _ => SameRowsAt.trans) fun _ => ?_
    exact hmake.bind (fun _ _ _ => SameRowsAt.trans) fun _ => SameRowsAt.refl place

/-- To open the five tables keeps the rows in every file that is not beside their database. -/
theorem Connection.tablesOfParams_keepsRows (hshared : w.WellShared)
    (hbeside : ∀ path c w', p.get .filesdb = .ok path →
      (ofAddress path).run w = (.ok c, w') → ¬ c.Beside place) :
    SameRowsAt place w ((tablesOfParams p).run w).2 := by
  unfold tablesOfParams
  cases hpath : p.get .filesdb with
  | error fault => exact SameRowsAt.refl place w
  | ok path =>
    rw [Action.ofExcept, Work.run_bind_ok (Work.run_ofExcept _ w)]
    refine ofAddress_bind_keepsRows hshared fun c w₁ hopen => ?_
    have hmake := make_leads (hbeside path c w₁ hpath hopen) (fun db => .ok db.openCatalog)
      fun h => Except.ok.inj h ▸ Database.sameRows_openCatalog _
    exact hmake.bind (fun _ _ _ => SameRowsAt.trans) fun _ => SameRowsAt.refl place

end Opening

/-! ## §3 Ingests that end early -/

namespace Params

/-- The connections that an ingest into a tree of files opens: to the database of the collection
and, when the collection has been opened, to that of the tables. -/
inductive Opens (p : Params) (files : Files) : Connection → Prop
  | store {path : String} {c : Connection} {w : Workspace} (hpath : p.storePath? = some path)
      (hopen : (Connection.ofAddress path).run (.ofFiles files) = (.ok c, w)) : Opens p files c
  | tables {path : String} {store : Store} {c : Connection} {w w' : Workspace}
      (hstore : (Store.ofParams p).run (.ofFiles files) = (.ok store, w))
      (hpath : p.get .filesdb = .ok path)
      (hopen : (Connection.ofAddress path).run w = (.ok c, w')) : Opens p files c

/-- An ingest that takes something in opens the database of the collection. -/
def OpensStore (p : Params) (files : Files) : Prop :=
  (∃ taken, p.intake files = .ok (some taken)) ∧
    ∃ path c w, p.storePath? = some path ∧
      (Connection.ofAddress path).run (.ofFiles files) = (.ok c, w)

/-- An ingest fails before it registers anything. -/
inductive FailsEarly (p : Params) (files : Files) : Fault → Prop
  /-- The parameters are refused or make no dataset, the document cannot be read, or the folder
  cannot be listed. -/
  | intake {fault : Fault} (h : p.intake files = .error fault) : FailsEarly p files fault
  /-- The collection or the five tables cannot be opened. -/
  | opening {taken : Intake} {fault : Fault} {w : Workspace} (h : p.intake files = .ok (some taken))
      (hopen : (openBoth p).run (.ofFiles files) = (.error fault, w)) : FailsEarly p files fault

end Params

section EarlyEnds

open Workspace (SameRowsAt)

variable {p : Params} {files : Files}

theorem openBoth_keepsRows {place : List String}
    (hbeside : ∀ c, p.Opens files c → ¬ c.Beside place) :
    SameRowsAt place (.ofFiles files) ((openBoth p).run (.ofFiles files)).2 := by
  have hshared := Workspace.wellShared_ofFiles files
  have hstore : SameRowsAt place _ ((Store.ofParams p).run (.ofFiles files)).2 :=
    Store.ofParams_keepsRows hshared fun path c w hpath hopen => hbeside c (.store hpath hopen)
  unfold openBoth
  rcases hrun : (Store.ofParams p).run (.ofFiles files) with ⟨fault | store, w⟩
  · rw [hrun] at hstore
    rw [Work.run_bind_error hrun]
    exact hstore
  · rw [hrun] at hstore
    have hshared' : w.WellShared := by
      cases hpath : p.storePath? with
      | none =>
        obtain ⟨fault, hfails⟩ := Store.run_ofParams_of_none hpath (.ofFiles files)
        cases hfails.symm.trans hrun
      | some path =>
        obtain ⟨-, -, w₁, hopen, old, new, -, hchanges⟩ := Store.exists_of_ofParams hpath hrun
        obtain ⟨_, -, -, hwell⟩ := Connection.opened_ofAddress hshared hopen
        exact hchanges.wellShared hwell
    have htables : SameRowsAt place w ((Connection.tablesOfParams p).run w).2 :=
      Connection.tablesOfParams_keepsRows hshared' fun path c w' hpath hopen =>
        hbeside c (.tables hrun hpath hopen)
    rw [Work.run_bind_ok hrun]
    -- what has been opened for the collection stays when the tables cannot be opened
    refine hstore.trans ?_
    rcases hrun' : (Connection.tablesOfParams p).run w with ⟨fault | tables, w'⟩
    · rw [hrun'] at htables
      rw [Work.run_bind_error hrun']
      exact htables
    · rw [hrun'] at htables
      rw [Work.run_bind_ok hrun']
      exact htables

/-- Where the database of the collection is not opened, nothing is touched. -/
theorem run_ingest_of_not_opensStore (h : ¬ p.OpensStore files) :
    ((ingest p).run (.ofFiles files)).2 = .ofFiles files := by
  rcases htaken : p.intake files with fault | _ | taken
  · rw [run_ingest_of_error (w := .ofFiles files) htaken]
  · rw [run_ingest_of_none (w := .ofFiles files) htaken]
  · have hfails : ∃ fault,
        (Store.ofParams p).run (.ofFiles files) = (.error fault, .ofFiles files) := by
      cases hpath : p.storePath? with
      | none => exact Store.run_ofParams_of_none hpath _
      | some path =>
        rcases hopen : (Connection.ofAddress path).run (.ofFiles files) with ⟨fault | c, w⟩
        · obtain rfl := Connection.eq_of_ofAddress_error hopen
          rw [Store.ofParams_of_storePath? hpath]
          exact ⟨fault, Work.run_bind_error hopen _⟩
        · exact absurd ⟨⟨taken, htaken⟩, path, c, w, hpath, hopen⟩ h
    obtain ⟨fault, hrun⟩ := hfails
    have hboth : (openBoth p).run (.ofFiles files) = (.error fault, .ofFiles files) := by
      unfold openBoth
      exact Work.run_bind_error hrun _
    rw [run_ingest_of_some (w := .ofFiles files) htaken, run_takeIn_of_error taken hboth]

/-- There is no report only where there is nothing to take in. -/
theorem intake_of_run_none {w w' : Workspace} (h : (ingest p).run w = (.ok none, w')) :
    p.intake w.files = .ok none := by
  rcases htaken : p.intake w.files with fault | _ | taken
  · rw [run_ingest_of_error htaken] at h
    cases h
  · rfl
  · rw [run_ingest_of_some htaken] at h
    unfold takeIn at h
    obtain ⟨_, w₁, -, h⟩ := Work.exists_of_run_bind h
    obtain ⟨report, w₂, -, h⟩ := Work.exists_of_run_bind h
    cases h

end EarlyEnds

/-- What stands in a working directory with the note, the scan, a database with the record of the
note, and a file that is no database. -/
def besideEntries : List (String × FileTree Content) :=
  [("note", .file (.text "silicon wafer")), ("raw", .folder [("scan", .file (.text ""))]),
    ("meta.db", .file (.database noteCollection)), ("files.db", .file (.text "no database"))]

/-- Such a working directory, with more entries. -/
def besideSite (more : List (String × FileTree Content)) : Files :=
  .folder [("tmp", .folder [("", .folder (besideEntries ++ more))])]

/-- Beside the file that is no database stands another database, under the name of its journal. -/
def journalSite : Files :=
  besideSite [("files.db-journal", .file (.database noteCollection))]

/-- At a site with the note and the scan these are what is taken in. -/
theorem intake_of_note {tree : Files} {p : Params} (hkeys : p.require ingestKeys = .ok ())
    (hfname : p.get .fname = .ok "note") (hpath : p.get .path = .ok "raw")
    (hdataset : p.dataset = .ok siteDataset)
    (hnote : tree.at? ["tmp", "", "note"] = some (.file (.text "silicon wafer")))
    (hraw : tree.at? ["tmp", "", "raw"] = some (.folder [("scan", .file (.text ""))])) :
    p.intake tree = .ok (some ⟨siteDataset, "silicon wafer", ["raw/scan"]⟩) := by
  have hblank : Text.isBlankText "silicon wafer" = false := by decide +kernel
  unfold Params.intake
  rw [hkeys, hfname, hdataset, hpath]
  simp only [bind, Except.bind, readDocument_of_note hnote, hblank, Bool.false_eq_true, if_false,
    listFiles_of_scan hraw]
  rfl

/-- What turns out to hold no database cannot be read. -/
theorem Connection.run_read_error {c : Connection} {w : Workspace} {files : Files}
    (hsettle : c.settleFiles? w.files = some files)
    (hnone : c.database? { w with files } = none) :
    c.read.run w = (.error .database, { w with files }) := by
  unfold read
  rw [Work.run_bind_ok (run_settle_eq_ok_iff.mpr ⟨files, hsettle, rfl⟩), Work.run_bind_ok (Work.run_get _),
    hnone]
  rfl

section BesideSite

variable {store dburi : String}
  (hstore : store = "meta.db" ∧ dburi = "sqlite://meta.db" ∨
    store = "files.db-journal" ∧ dburi = "sqlite://files.db-journal")

theorem isPlain_files : Path.IsPlain "files.db" := by decide +kernel

theorem hasWorkingFolder_beside (more : List (String × FileTree Content)) :
    (besideSite more).HasWorkingFolder :=
  ⟨besideEntries ++ more, rfl⟩

include hstore in
/-- The collection of either database is opened, and it is the one that is there. -/
theorem run_ofParams_beside :
    (Store.ofParams (siteParams dburi)).run (.ofFiles journalSite) =
      (.ok ⟨.ofName store, "metadata"⟩, .ofFiles journalSite) := by
  have hplain : Path.IsPlain store := by
    rcases hstore with ⟨rfl, rfl⟩ | ⟨rfl, rfl⟩ <;> decide +kernel
  have hpath : (siteParams dburi).storePath? = some store := by
    rcases hstore with ⟨rfl, rfl⟩ | ⟨rfl, rfl⟩ <;> decide +kernel
  have hat : journalSite.at? (FileTree.workingPlace ++ [store]) =
      some (.file (.database noteCollection)) := by
    rcases hstore with ⟨rfl, rfl⟩ | ⟨rfl, rfl⟩ <;> rfl
  have hside (side : SideFile) :
      journalSite.at? (FileTree.workingPlace ++ [side.name store]) = none := by
    rcases hstore with ⟨rfl, rfl⟩ | ⟨rfl, rfl⟩ <;> cases side <;> rfl
  have hname : (siteParams dburi).NamesCollection := by
    have hcheck : CollectionName.check "metadata" = .ok () := by decide +kernel
    exact hcheck
  have hopen :=
    hplain.run_ofAddress_file (w := .ofFiles journalSite) (hasWorkingFolder_beside _) hat
  have hserves : (Connection.ofName store).Serves (.ofFiles journalSite) noteCollection :=
    hplain.serves (hasWorkingFolder_beside _) hat rfl fun side _ => hside side
  have hsame : noteCollection.openCollection "metadata" = .ok noteCollection := by decide +kernel
  exact Store.run_ofParams hpath hopen hname (Connection.run_make_of_same hserves.run_read hsame)

/-- When the tables are to be opened, the supposed journal goes first, and then it turns out that
the file is no database. -/
theorem run_openTables_beside :
    (Connection.ofName "files.db").openTables.run (.ofFiles journalSite) =
      (.error .database, .ofFiles (besideSite [])) := by
  have hat : journalSite.at? (FileTree.workingPlace ++ ["files.db"]) =
      some (.file (.text "no database")) := rfl
  have hjournal : journalSite.at? (SideFile.journal.place (FileTree.workingPlace ++ ["files.db"])) =
      some (.file (.database noteCollection)) := rfl
  have hshort : journalSite.isShortAt? (FileTree.workingPlace ++ ["files.db"]) = some false := by
    rw [FileTree.isShortAt?_of_file hat]
    decide +kernel
  have hpresent : journalSite.isPresent
      (SideFile.journal.place (FileTree.workingPlace ++ ["files.db"])) = true :=
    isPlain_files.isPresent (hasWorkingFolder_beside _) hjournal (by decide +kernel)
  have herased : journalSite.erase
      (SideFile.journal.place (FileTree.workingPlace ++ ["files.db"])) = besideSite [] := rfl
  have hfirst : FileTree.settleJournal? (FileTree.workingPlace ++ ["files.db"])
      (Connection.ofName "files.db").access journalSite = some (besideSite []) := by
    simp only [FileTree.settleJournal?, hshort, hpresent, hjournal, herased,
      Connection.mayChange_ofName]
    rfl
  have hsecond : FileTree.settleLog? (FileTree.workingPlace ++ ["files.db"])
      (Connection.ofName "files.db").access (besideSite []) = some (besideSite []) := by
    have hfree : (besideSite []).HasFree (FileTree.workingPlace ++ ["files.db"]) .log :=
      isPlain_files.hasFree (hasWorkingFolder_beside _) rfl
    have hat' : (besideSite []).at? (FileTree.workingPlace ++ ["files.db"]) =
        some (.file (.text "no database")) := rfl
    exact FileTree.settleLog?_of_free hat' hfree _
  have hsettle :
      (Connection.ofName "files.db").settleFiles? journalSite = some (besideSite []) := by
    rw [Connection.settleFiles?_file rfl (by decide +kernel)]
    exact Option.bind_eq_some_iff.mpr ⟨besideSite [], hfirst, hsecond⟩
  have hnone : (Connection.ofName "files.db").database? (.ofFiles (besideSite [])) = none := by
    decide +kernel
  have hread := Connection.run_read_error (w := .ofFiles journalSite) hsettle hnone
  exact Work.run_bind_error hread _

include hstore in
/-- The tables cannot be opened. -/
theorem run_tablesOfParams_beside :
    (Connection.tablesOfParams (siteParams dburi)).run (.ofFiles journalSite) =
      (.error .database, .ofFiles (besideSite [])) := by
  have hpath : (siteParams dburi).get .filesdb = .ok "files.db" := by
    rcases hstore with ⟨rfl, rfl⟩ | ⟨rfl, rfl⟩ <;> decide +kernel
  have hget : (Action.ofExcept ((siteParams dburi).get .filesdb)).run
      (.ofFiles journalSite) = (.ok "files.db", .ofFiles journalSite) := by
    rw [hpath]
    rfl
  have hopen := isPlain_files.run_ofAddress_file (w := .ofFiles journalSite)
    (hasWorkingFolder_beside _) rfl
  unfold Connection.tablesOfParams
  rw [Work.run_bind_ok hget, Work.run_bind_ok hopen]
  exact Work.run_bind_error run_openTables_beside _

include hstore in
/-- So an ingest fails before it registers anything. -/
theorem failsEarly_beside :
    (siteParams dburi).FailsEarly journalSite .database ∧
      (ingest (siteParams dburi)).run (.ofFiles journalSite) =
        (.error .database, .ofFiles (besideSite [])) := by
  have hkeys : (siteParams dburi).require ingestKeys = .ok () := by
    rcases hstore with ⟨rfl, rfl⟩ | ⟨rfl, rfl⟩ <;> decide +kernel
  have htaken : (siteParams dburi).intake journalSite =
      .ok (some ⟨siteDataset, "silicon wafer", ["raw/scan"]⟩) :=
    intake_of_note hkeys rfl rfl rfl rfl rfl
  have hboth : (openBoth (siteParams dburi)).run (.ofFiles journalSite) =
      (.error .database, .ofFiles (besideSite [])) := by
    unfold openBoth
    rw [Work.run_bind_ok (run_ofParams_beside hstore)]
    exact Work.run_bind_error (run_tablesOfParams_beside hstore) _
  refine ⟨.opening htaken hboth, ?_⟩
  rw [run_ingest_of_some (w := .ofFiles journalSite) htaken, run_takeIn_of_error _ hboth]

end BesideSite

end MetadataCatalog
