import MetadataCatalog.Proofs.Catalog.Placements

/-!
# Runs of calls

A run of calls to a catalog starts from a tree of files, and each call finds the files as the one
before has left them (`answers`). Where the parameters keep the halves of the catalog at the places
of a placement (`Params.KeptAt`), every call does on the files what it does on the cabinet that they
show (`call_matches`), so a run is answered as the same run on the cabinet (`answers_eq`).
-/

namespace MetadataCatalog

/-! ## §1 Calls -/

/-- The numbers of rows of tables, one after the other. -/
def Connection.counts (c : Connection) : List CatalogTable → Action (List Nat)
  | [] => return []
  | table :: rest => do
    let n ← c.count table.name
    return n :: (← c.counts rest)

/-- Carries out a call. Of the tables that are made it is told how many rows they have. -/
def CatalogCall.run (p : Params) : CatalogCall → Action CatalogAnswer
  | .init => do
    let tables ← initTables p
    return .rows (← tables.counts CatalogTable.all)
  | .ingest => do return .report (← MetadataCatalog.ingest p)
  | .find query withFiles => do return .hits (← MetadataCatalog.find p query withFiles)
  | .datasetFiles dataset => do return .files (← MetadataCatalog.datasetFiles p dataset)

/-- The answers to calls, one after the other, apart from the wording of faults. Each call finds the
files as the one before has left them. -/
def answers (p : Params) : Files → List CatalogCall →
    List (Except (Fault.Kind × Option Nat) CatalogAnswer)
  | _, [] => []
  | files, call :: rest =>
    let (outcome, w) := (call.run p).run (.ofFiles files)
    outline outcome :: answers p w.files rest

/-! ## §2 Where parameters keep a catalog -/

/-- An address is that of a file at a place, which can be made and changed. The path to it goes
through folders that are there. -/
structure Address.Reaches (a : Address) (initial : Files) (place : List String) : Prop where
  file : a.isSpare = false
  make : a.mode = .make
  changeable : a.fixed = false
  model : (a.model.map initial.hasPath).getD true = true
  way : initial.placeOf a.path ≠ .nowhere
  place : initial.databasePlace? a.path = some place

/-- The parameters keep the halves of a catalog at the places of a placement, and what is to be
ingested by them does not depend on the databases. -/
structure Params.KeptAt (p : Params) (initial : Files) (P : Placement) : Prop where
  room : P.IsRoom initial
  store : ∃ path a, p.storePath? = some path ∧ Address.ofText? path = some a ∧
    a.Reaches initial (P .store)
  tables : ∃ path a, p.get .filesdb = .ok path ∧ Address.ofText? path = some a ∧
    a.Reaches initial (P .tables)
  undisturbed : ∀ tree, P.Regains initial tree → p.intake tree = p.intake initial

namespace Params.KeptAt

variable {p : Params} {initial : Files} {P : Placement} (h : p.KeptAt initial P)
include h

theorem isSome_dburi : (p.value? .dburi).isSome = true := by
  obtain ⟨path, -, hpath, -⟩ := h.store
  obtain ⟨address, haddress, -⟩ := Option.bind_eq_some_iff.mp hpath
  rw [haddress, Option.isSome_some]

theorem isSome_filesdb : (p.value? .filesdb).isSome = true := by
  obtain ⟨path, -, hpath, -⟩ := h.tables
  exact isSome_value?_of_get hpath

end Params.KeptAt

section Opening

variable {P : Placement} {initial : Files} {half : Half} {opened : List Half} {w : Workspace}
  {c : Cabinet} {a : Address}

/-- Where a file is made there is one afterwards, and the files show the same cabinet. -/
theorem Placement.Open.withFile (h : P.Open initial opened w c) (hroom : P.IsRoom initial)
    (half : Half) :
    ∃ files, w.files.withFileAt? (some (.text "")) (P half) = some files ∧
      P.Open initial (half :: opened) { w with files } c := by
  rcases h.shows.databases half with ⟨content, hat, hdb⟩ | ⟨hnone, hempty⟩
  · refine ⟨w.files, by simp only [FileTree.withFileAt?, hat], h.shows, ?_, h.shares⟩
    intro other hother
    rcases List.mem_cons.mp hother with rfl | hother
    · exact ⟨content, hat⟩
    · exact h.there other hother
  · -- a new file is empty, and so is the database of a half that has not been made
    obtain ⟨entries, hfolder⟩ := h.shows.regains.gains.folderAt (hroom.folder half)
    have hfiles : w.files.withFileAt? (some (.text "")) (P half) =
        some (w.files.put (P half) (.file (.text ""))) := by
      simp [FileTree.withFileAt?, hnone, hfolder, FileTree.isFolder]
    obtain ⟨hself, helse⟩ := FileTree.at?_put_newFile hnone ⟨entries, hfolder⟩ (.text "" : Content)
    have hregains := Placement.regains_withFileAt? (hroom.place_ne_nil half) hfiles
    refine ⟨_, hfiles, ⟨h.shows.regains.trans hregains, fun other => ?_⟩, fun other hother => ?_,
      h.shares⟩
    · by_cases hplace : P other = P half
      · rw [h.shows.eq_of_place hplace, hplace, hempty]
        exact .inl ⟨_, hself, rfl⟩
      · rcases h.shows.databases other with ⟨content, hat, hdb⟩ | ⟨hnone', hempty'⟩
        · exact .inl ⟨content, (helse _ hplace _ rfl).mpr hat, hdb⟩
        · have hkind := (FileTree.gainsFiles_withFileAt? (hroom.place_ne_nil half)
            hfiles).kindAt?_of_not hplace
          rw [FileTree.kindAt?, FileTree.kindAt?, hnone'] at hkind
          exact .inr ⟨Option.map_eq_none_iff.mp hkind, hempty'⟩
    · by_cases hplace : P other = P half
      · rw [hplace]
        exact ⟨_, hself⟩
      · have hopened : other ∈ opened :=
          (List.mem_cons.mp hother).resolve_left fun heq => hplace (congrArg P heq)
        obtain ⟨content, hat⟩ := h.there other hopened
        exact ⟨content, (helse _ hplace _ rfl).mpr hat⟩

/-- A connection that is shared from now on, or was shared before, leads to the place. -/
theorem Placement.Open.run_share (h : P.Open initial opened w c) {new : Connection}
    (hnew : P.Connects half new) :
    ∃ conn w', (Connection.share (.file (P half)) new).run w = (.ok conn, w') ∧
      P.Connects half conn ∧ P.Open initial opened w' c := by
  unfold Connection.share
  rw [Work.run_bind_ok (Work.run_get _)]
  cases hlookup : w.shared.lookup (.file (P half)) with
  | some conn =>
    obtain ⟨hseat, hchange⟩ := h.shares _ _ hlookup
    exact ⟨conn, w, rfl, ⟨hseat, hchange⟩, h⟩
  | none =>
    -- the new connection is the last of those that are shared
    refine ⟨new, _, rfl, hnew, h.shows, h.there, fun place conn hfound => ?_⟩
    dsimp only at hfound
    rw [List.lookup_append] at hfound
    cases hold : w.shared.lookup (.file place) with
    | some found =>
      rw [hold] at hfound
      exact h.shares place conn (hold.trans hfound)
    | none =>
      rw [hold, Option.none_or, List.lookup_cons] at hfound
      split at hfound
      · next hname =>
        obtain rfl := SharedName.file.inj (eq_of_beq hname)
        cases hfound
        exact ⟨hnew.seat, hnew.mayChange⟩
      · cases hfound

/-- **An address that reaches a place** opens a connection to the half that is kept there. -/
theorem Placement.Open.run_ofAddress (h : P.Open initial opened w c) (hroom : P.IsRoom initial)
    {text : String} (ha : Address.ofText? text = some a) (hreach : a.Reaches initial (P half)) :
    ∃ conn w', (Connection.ofAddress text).run w = (.ok conn, w') ∧ P.Connects half conn ∧
      P.Open initial (half :: opened) w' c := by
  have hgains := h.shows.regains.gains
  obtain ⟨-, hplace⟩ := FileTree.databasePlace?_of_gainsFiles (.of_kindAt? fun _ => rfl) hgains
    hroom.work hreach.way hreach.place
  obtain ⟨files, hfiles, hopen⟩ := h.withFile hroom half
  have hmodel : (a.model.map w.files.hasPath).getD true = true := by
    have hmodel := hreach.model
    cases hpath : a.model with
    | none => rfl
    | some path =>
      rw [hpath] at hmodel
      exact hgains.hasPath hmodel
  have hnew : P.Connects half ⟨.file (P half), a.access⟩ :=
    ⟨rfl, by simp [Address.access, hreach.make, hreach.changeable]⟩
  -- the path leads where it led at first, since only files of the catalog are new
  rw [Connection.ofAddress, ha]
  simp only [hreach.file, Bool.false_eq_true, if_false]
  unfold Connection.openFile
  rw [Work.run_bind_ok (Work.run_get _)]
  simp only [hplace, hreach.make, if_true, hfiles, hmodel, Bool.not_true, Bool.false_eq_true,
    if_false]
  rw [Work.run_bind_ok (Work.run_set _ _)]
  cases a.shared with
  | true => exact hopen.run_share hnew
  | false => exact ⟨_, _, rfl, hnew, hopen⟩

end Opening

/-! ## §3 Calls on files and on a cabinet -/

/-- When work ends, the files show the cabinet on which it was done. -/
def Placement.Shown (P : Placement) (initial : Files) (w : Workspace) (c : Cabinet) : Prop :=
  P.Shows initial w.files c

section Calls

variable {p : Params} {P : Placement} {initial : Files} (opened : List Half)

/-- To open a half is to open its database and to do in the cabinet what is done there. -/
theorem open_matches (hroom : P.IsRoom initial) {half : Half} {text : String} {a : Address}
    (ha : Address.ofText? text = some a) (hreach : a.Reaches initial (P half)) {α : Type}
    {work : Connection → Action Unit} {onCabinet : Work Cabinet Unit} (result : Connection → α)
    (hwork : ∀ conn, P.Connects half conn →
      Work.Mirrors (P.Open initial (half :: opened)) (work conn) onCabinet) :
    Work.Matches (P.Open initial opened) (P.Shown initial)
      (fun a _ w c => (∃ conn, a = result conn ∧ P.Connects half conn) ∧
        P.Open initial (half :: opened) w c)
      (do
        let conn ← Connection.ofAddress text
        work conn
        return result conn)
      onCabinet := by
  intro w c h
  obtain ⟨conn, w₁, hopen, hconn, h₁⟩ := h.run_ofAddress hroom ha hreach
  obtain ⟨w₂, hrun, h₂⟩ := hwork conn hconn w₁ c h₁
  rw [Work.run_bind_ok hopen]
  rcases hrun' : onCabinet.run c with ⟨fault | u, c'⟩
  · rw [hrun'] at hrun h₂
    exact .inl ⟨fault, w₂, c', Work.run_bind_error hrun _, rfl, h₂.shows⟩
  · rw [hrun'] at hrun h₂
    exact .inr ⟨_, _, w₂, c', Work.run_bind_ok hrun _, rfl, ⟨conn, rfl, hconn⟩, h₂⟩

/-- Work that mirrors other work ends with the same answer. -/
theorem matches_of_mirrors {α : Type} {opened : List Half} {m : Action α} {m' : Work Cabinet α}
    (h : Work.Mirrors (P.Open initial opened) m m') :
    Work.Matches (P.Open initial opened) (P.Shown initial)
      (fun a b w c => a = b ∧ P.Shown initial w c) m m' := by
  intro w c hopen
  obtain ⟨w', hrun, hopen'⟩ := h w c hopen
  rcases hrun' : m'.run c with ⟨fault | a, c'⟩
  · rw [hrun'] at hrun hopen'
    exact .inl ⟨fault, w', c', hrun, rfl, hopen'.shows⟩
  · rw [hrun'] at hrun hopen'
    exact .inr ⟨a, a, w', c', hrun, rfl, rfl, hopen'.shows⟩

variable (hkept : p.KeptAt initial P)
include hkept

theorem ofParams_matches :
    Work.Matches (P.Open initial opened) (P.Shown initial)
      (fun store _ w c => (∃ conn, store = ⟨conn, p.collectionName⟩ ∧ P.Connects .store conn) ∧
        P.Open initial (.store :: opened) w c)
      (Store.ofParams p) (Cabinet.openStore P.shared p.collectionName) := by
  obtain ⟨path, a, hpath, ha, hreach⟩ := hkept.store
  have hopen := open_matches opened hkept.room ha hreach
    (fun conn => (⟨conn, p.collectionName⟩ : Store)) fun conn hconn =>
      (Work.Mirrors.ofExcept (CollectionName.check p.collectionName)).bind fun _ =>
        Placement.make_mirrors hkept.room List.mem_cons_self hconn
          fun db => db.openCollection p.collectionName
  rw [Store.ofParams_of_storePath? hpath]
  simpa only [Store.ofConnection, Cabinet.openStore, Action.ofExcept, bind_assoc] using hopen

theorem tablesOfParams_matches :
    Work.Matches (P.Open initial opened) (P.Shown initial)
      (fun tables _ w c => (∃ conn, tables = conn ∧ P.Connects .tables conn) ∧
        P.Open initial (.tables :: opened) w c)
      (Connection.tablesOfParams p) (Cabinet.openTables P.shared) := by
  obtain ⟨path, a, hpath, ha, hreach⟩ := hkept.tables
  have hopen := open_matches opened hkept.room ha hreach id fun conn hconn =>
    Placement.make_mirrors hkept.room List.mem_cons_self hconn fun db => .ok db.openCatalog
  unfold Connection.tablesOfParams
  rw [hpath]
  exact hopen

theorem counts_mirrors {conn : Connection} (hconn : P.Connects .tables conn)
    (hopened : .tables ∈ opened) (tables : List CatalogTable) :
    Work.Mirrors (P.Open initial opened) (conn.counts tables) (Cabinet.counts tables) := by
  induction tables with
  | nil => exact Work.Mirrors.pure _
  | cons table rest ih =>
    have hcount : conn.count table.name = conn.query fun db => .ok (db.count table) := by
      unfold Connection.count
      rw [CatalogTable.ofName_name]
      rfl
    unfold Connection.counts Cabinet.counts
    rw [hcount]
    exact (Placement.query_mirrors hkept.room hopened hconn _).bind fun n =>
      ih.bind fun more => Work.Mirrors.pure _

theorem findFiles_mirrors {conn : Connection} (hconn : P.Connects .tables conn)
    (hopened : .tables ∈ opened) (d : Dataset) :
    Work.Mirrors (P.Open initial opened) (conn.keeper.findFiles d)
      ((Cabinet.datasetKeeper P.shared).findFiles d) :=
  Placement.query_mirrors hkept.room hopened hconn fun db => db.findFiles d

/-- **What is ingested** through the two connections is ingested into the cabinet. -/
theorem ingestInto_mirrors {conn tables : Connection} (hconn : P.Connects .store conn)
    (htables : P.Connects .tables tables) (hopened : .store ∈ opened) (hopened' : .tables ∈ opened)
    (taken : Intake) :
    Work.Mirrors (P.Open initial opened)
      (ingestInto ⟨conn, p.collectionName⟩ tables taken.dataset taken.text taken.files)
      (ingestWith (Cabinet.recordKeeper P.shared p.collectionName) (Cabinet.datasetKeeper P.shared)
        taken.dataset taken.text taken.files) := by
  refine ingestWith_mirrors (fun d files => ?_) (fun r => ?_) _ _ _
  · exact Placement.update_mirrors hkept.room hopened' htables _ fun db => db.insertDataset d files
  · exact Placement.update_mirrors hkept.room hopened hconn _
      fun db => db.insertRecord p.collectionName r

/-- **What is found** through the two connections is found in the cabinet. -/
theorem findIn_mirrors {conn : Connection} (hconn : P.Connects .store conn)
    (hopened : .store ∈ opened) (withFiles : Bool) (tables : Connection)
    (htables : withFiles = true → P.Connects .tables tables ∧ .tables ∈ opened) (query : String) :
    Work.Mirrors (P.Open initial opened)
      (findIn ⟨conn, p.collectionName⟩ (if withFiles then some tables else none) query)
      (findWith (Cabinet.recordKeeper P.shared p.collectionName)
        (if withFiles then some (Cabinet.datasetKeeper P.shared) else none) query) := by
  have hkeeper : (if withFiles then some tables else none).map Connection.keeper =
      if withFiles then some tables.keeper else none := by
    cases withFiles <;> rfl
  unfold findIn
  rw [hkeeper]
  refine findWith_mirrors withFiles (fun query => ?_) (fun hfiles d => ?_) query
  · exact Placement.query_mirrors hkept.room hopened hconn fun db =>
      db.search p.collectionName query
  · obtain ⟨htables, hopened'⟩ := htables hfiles
    exact findFiles_mirrors opened hkept htables hopened' d

theorem takeIn_matches (taken : Intake) :
    Work.Matches (P.Open initial []) (P.Shown initial)
      (fun a b w c => a = b ∧ P.Shown initial w c)
      (do return CatalogAnswer.report (← takeIn p taken))
      (do
        Cabinet.openStore P.shared p.collectionName
        Cabinet.openTables P.shared
        return .report (some (← ingestWith (Cabinet.recordKeeper P.shared p.collectionName)
          (Cabinet.datasetKeeper P.shared) taken.dataset taken.text taken.files))) := by
  unfold takeIn openBoth
  simp only [bind_assoc, pure_bind]
  refine (ofParams_matches [] hkept).bind fun store _ => .assuming fun ⟨conn, hstore, hconn⟩ => ?_
  refine (tablesOfParams_matches _ hkept).bind fun tables _ => .assuming ?_
  rintro ⟨_, rfl, hconn'⟩
  subst hstore
  have hingest := ingestInto_mirrors [.tables, .store] hkept hconn hconn'
    (by decide) (by decide) taken
  exact matches_of_mirrors (hingest.bind fun report =>
    Work.Mirrors.pure (CatalogAnswer.report (some report)))

omit hkept in
theorem ofExcept_ok {α : Type} (a : α) : Action.ofExcept (.ok a) = pure a := rfl

/-- What an ingest is to take in is what it was to take in at first. -/
theorem ingest_matches :
    Work.Matches (P.Open initial []) (P.Shown initial)
      (fun a b w c => a = b ∧ P.Shown initial w c) (CatalogCall.ingest.run p)
      (CatalogCall.ingest.onCabinet P.shared p.collectionName (p.intake initial)) := by
  have hstages : Work.Matches (P.Open initial []) (P.Shown initial)
      (fun a b w c => a = b ∧ P.Shown initial w c)
      (do
        let taken ← Work.ofExcept (p.intake initial)
        return CatalogAnswer.report (← ingestIntake p taken))
      (CatalogCall.ingest.onCabinet P.shared p.collectionName (p.intake initial)) := by
    have hfound := Work.Matches.of_mirrors (R := P.Open initial []) (E := P.Shown initial)
      (Work.Mirrors.ofExcept (p.intake initial)) fun _ _ h => h.shows
    refine hfound.bind fun taken taken' => .assuming ?_
    rintro rfl
    cases taken with
    | none => exact matches_of_mirrors (Work.Mirrors.pure _)
    | some taken => exact takeIn_matches hkept taken
  intro w c h
  -- the files have changed at the places of the catalog only, and this does not show in the intake
  have hrun : (CatalogCall.ingest.run p).run w = (do
      let taken ← Work.ofExcept (p.intake initial)
      return CatalogAnswer.report (← ingestIntake p taken) : Action CatalogAnswer).run w := by
    have hsame := run_ingest p w
    rw [hkept.undisturbed _ h.shows.regains] at hsame
    rw [← bind_assoc]
    exact Work.run_bind_congr hsame _
  rw [hrun]
  exact hstages w c h

/-- **A call** on the files is the call on the cabinet that they show. -/
theorem call_matches (call : CatalogCall) :
    Work.Matches (P.Open initial []) (P.Shown initial)
      (fun a b w c => a = b ∧ P.Shown initial w c) (call.run p)
      (call.onCabinet P.shared p.collectionName (p.intake initial)) := by
  have hdburi := Params.require_of_isSome hkept.isSome_dburi
  have hfilesdb := Params.require_of_isSome hkept.isSome_filesdb
  cases call with
  | init =>
    simp only [CatalogCall.run, initTables, CatalogCall.onCabinet, hfilesdb, ofExcept_ok, pure_bind]
    refine (tablesOfParams_matches _ hkept).bind fun tables _ => .assuming ?_
    rintro ⟨conn, rfl, hconn⟩
    have hcounts := counts_mirrors [.tables] hkept hconn (by decide) CatalogTable.all
    exact matches_of_mirrors (hcounts.bind fun n => Work.Mirrors.pure _)
  | ingest => exact ingest_matches hkept
  | find query withFiles =>
    simp only [CatalogCall.run, find, CatalogCall.onCabinet, hdburi, hfilesdb, ofExcept_ok,
      pure_bind]
    cases withFiles with
    | false =>
      simp only [Bool.false_eq_true, if_false, bind_assoc]
      refine (ofParams_matches [] hkept).bind fun store _ => .assuming ?_
      rintro ⟨conn, rfl, hconn⟩
      have hfind := findIn_mirrors [.store] hkept hconn (by decide) false conn
        (fun h => absurd h Bool.false_ne_true) query
      exact matches_of_mirrors (hfind.bind fun n => Work.Mirrors.pure _)
    | true =>
      simp only [if_true, map_eq_pure_bind, bind_assoc, pure_bind]
      refine (ofParams_matches [] hkept).bind fun store _ => .assuming ?_
      rintro ⟨conn, rfl, hconn⟩
      refine (tablesOfParams_matches _ hkept).bind fun tables _ => .assuming ?_
      rintro ⟨conn', rfl, hconn'⟩
      have hfind := findIn_mirrors [.tables, .store] hkept hconn (by decide) true tables
        (fun _ => ⟨hconn', by decide⟩) query
      exact matches_of_mirrors (hfind.bind fun n => Work.Mirrors.pure _)
  | datasetFiles dataset =>
    simp only [CatalogCall.run, datasetFiles, CatalogCall.onCabinet, hfilesdb, ofExcept_ok,
      pure_bind, bind_assoc]
    refine (tablesOfParams_matches _ hkept).bind fun tables _ => .assuming ?_
    rintro ⟨conn, rfl, hconn⟩
    have hfiles := filesFor_mirrors (findFiles_mirrors [.tables] hkept hconn (by decide))
      dataset
    exact matches_of_mirrors (hfiles.bind fun n => Work.Mirrors.pure _)

/-! ## §4 Runs of calls -/

/-- **A run** is answered as the same run on the cabinet that the files show. -/
theorem answers_eq {files : Files} {c : Cabinet} (h : P.Shows initial files c)
    (calls : List CatalogCall) :
    answers p files calls = c.answers P.shared p.collectionName (p.intake initial) calls := by
  -- on the calls; after each of them, failed or not, the files show the cabinet after it
  induction calls generalizing files c with
  | nil => rfl
  | cons call rest ih =>
    have hopen : P.Open initial [] (.ofFiles files) c := ⟨h, nofun, nofun⟩
    rw [answers, Cabinet.answers]
    rcases call_matches hkept call _ c hopen with
      ⟨fault, w, c', hrun, hrun', hshown⟩ | ⟨answer, _, w, c', hrun, hrun', rfl, hshown⟩
    · rw [hrun, hrun']
      exact congrArg _ (ih hshown)
    · rw [hrun, hrun']
      exact congrArg _ (ih hshown)

end Calls

end MetadataCatalog
