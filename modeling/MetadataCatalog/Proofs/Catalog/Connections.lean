import MetadataCatalog.Catalog.Stores
import MetadataCatalog.Proofs.Storage.Overwriting

/-!
# Connections that serve

A connection serves a database when the database is there, may be changed, and no side file of an
earlier change stands beside it (`Connection.Serves`). Such a connection does what it is asked to.
Reading gives the database and changes nothing (`Serves.run_query`). A change of the database is
carried out, after which the connection serves the changed database, and other connections what they
served before (`Serves.run_update`). So what is done through it one thing after the other is what
would be done to the database itself.
-/

namespace MetadataCatalog

/-! ## §1 Side files -/

namespace FileTree

/-- Nothing has the name of a side file of the database at a place, and a file can have it. -/
def HasFree (tree : Files) (place : List String) (side : SideFile) : Prop :=
  tree.resolve linkLimit [] (side.place place) =
    .free place.dropLast (side.name (place.getLast?.getD ""))

section Free

variable {tree : Files} {place : List String} {side : SideFile}

theorem HasFree.at?_eq_none (h : tree.HasFree place side) : tree.at? (side.place place) = none :=
  (at?_of_resolve_free h).1

theorem HasFree.isUsable (h : tree.HasFree place side) :
    Path.isUsable (side.name (place.getLast?.getD "")) = true :=
  (at?_of_resolve_free h).2

theorem HasFree.isPresent (h : tree.HasFree place side) :
    tree.isPresent (side.place place) = false := by
  unfold HasFree at h
  rw [FileTree.isPresent, h]

theorem HasFree.put_file (h : tree.HasFree place side) {other : List String} {old : Content}
    (hold : tree.at? other = some (.file old)) (new : Content) :
    (tree.put other (.file new)).HasFree place side :=
  (resolve_put_file hold new linkLimit [] _).trans h

end Free

variable {tree : Files} {place : List String}

theorem settleJournal?_of_free {content : Content} (hfile : tree.at? place = some (.file content))
    (hfree : tree.HasFree place .journal) (access : Access) :
    tree.settleJournal? place access = some tree := by
  simp [settleJournal?, isShortAt?_of_file hfile, hfree.isPresent]

theorem settleLog?_of_free {content : Content} (hfile : tree.at? place = some (.file content))
    (hfree : tree.HasFree place .log) (access : Access) :
    tree.settleLog? place access = some tree := by
  simp [settleLog?, isShortAt?_of_file hfile, hfree.isPresent]

/-- With room for the journal a database is written, and the journal leaves no trace. -/
theorem writeDatabase?_of_free {content : Content} (hfile : tree.at? place = some (.file content))
    (hfree : tree.HasFree place .journal) (db : Database) :
    tree.writeDatabase? place db = some (tree.put place (.file (.database db))) := by
  have hroom : tree.hasRoom (SideFile.journal.place place) = true := by
    rw [hasRoom, hfree.at?_eq_none]
  have hnone := (hfree.put_file hfile (.database db)).at?_eq_none
  rw [writeDatabase?, hroom, hfree.isUsable]
  simp only [Bool.and_self, if_true, Option.some.injEq]
  exact erase_of_at?_none hnone

end FileTree

namespace Connection

/-! ## §2 Working on what has been read -/

section Reading

variable {c : Connection} {w w' : Workspace} {db new : Database}

theorem run_query_of_read {α : Type} (h : c.read.run w = (.ok db, w))
    (ask : Database → Except Fault α) : (c.query ask).run w = (ask db, w) :=
  Work.run_bind_ok h _

/-- Nothing is made where it is there. -/
theorem run_make_of_same {make : Database → Except Fault Database} (h : c.read.run w = (.ok db, w))
    (hsame : make db = .ok db) : (c.make make).run w = (.ok (), w) := by
  have hmade : (Action.ofExcept (make db)).run w = (.ok db, w) := by
    rw [Action.ofExcept, Work.run_ofExcept, hsame]
  unfold Connection.make
  rw [Work.run_bind_ok h, Work.run_bind_ok hmade, if_neg (not_not_intro rfl)]
  rfl

theorem run_make_of_write {make : Database → Except Fault Database} {new : Database}
    (h : c.read.run w = (.ok db, w)) (hnew : make db = .ok new) (hne : new ≠ db)
    (hwrite : (c.write new).run w = (.ok (), w')) : (c.make make).run w = (.ok (), w') := by
  have hmade : (Action.ofExcept (make db)).run w = (.ok new, w) := by
    rw [Action.ofExcept, Work.run_ofExcept, hnew]
  unfold Connection.make
  rw [Work.run_bind_ok h, Work.run_bind_ok hmade, if_pos hne]
  exact hwrite

theorem run_update_of_write {α : Type} {writes : Bool} {outcome : Except Fault α} {new : Database}
    {change : Database → Except Fault α × Database} (h : c.read.run w = (.ok db, w))
    (hchange : change db = (outcome, new)) (hwrites : writes = true ∨ new ≠ db)
    (hwrite : (c.write new).run w = (.ok (), w')) :
    (c.update writes change).run w = (outcome, w') := by
  unfold Connection.update
  rw [Work.run_bind_ok h, hchange]
  have hcond : (writes || decide (new ≠ db)) = true := by simpa using hwrites
  simp only [hcond, if_true]
  exact Work.run_bind_ok hwrite _

/-- Nothing is written when a change that need not write has changed nothing. -/
theorem run_update_of_same {α : Type} {writes : Bool} {outcome : Except Fault α}
    {change : Database → Except Fault α × Database} (h : c.read.run w = (.ok db, w))
    (hchange : change db = (outcome, db)) (hwrites : writes = false) :
    (c.update writes change).run w = (outcome, w) := by
  unfold Connection.update
  rw [Work.run_bind_ok h, hchange]
  have hcond : (writes || decide (db ≠ db)) = false := by simp [hwrites]
  simp only [hcond, Bool.false_eq_true, if_false]
  cases outcome <;> rfl

end Reading

/-! ## §3 Serving -/

/-- The connection can be asked about the database and can change it. -/
structure Serves (c : Connection) (w : Workspace) (db : Database) : Prop where
  mayChange : c.access.mayChange = true
  database : c.database? w = some db
  free : ∀ place, c.seat = .file place →
    w.files.HasFree place .journal ∧ w.files.HasFree place .log

variable {c : Connection} {w : Workspace} {db : Database}

/-- The database of a connection to a file is the content of the file. -/
theorem exists_content_of_database? {place : List String} (hseat : c.seat = .file place)
    (h : c.database? w = some db) :
    ∃ content : Content, w.files.at? place = some (.file content) ∧
      content.database? = some db := by
  rw [database?, hseat] at h
  obtain ⟨content, hcontent, hdb⟩ := Option.bind_eq_some_iff.mp h
  obtain ⟨node, hat, hnode⟩ := Option.bind_eq_some_iff.mp hcontent
  cases node with
  | file other =>
    cases hnode
    exact ⟨content, hat, hdb⟩
  | link target => cases hnode
  | folder entries => cases hnode

theorem run_changeFiles {change : Files → Option Files} {files : Files}
    (h : change w.files = some files) :
    (changeFiles change).run w = (.ok (), { w with files }) := by
  refine (Work.run_bind_ok (Work.run_get _) _).trans ?_
  rw [h]
  rfl

/-- Where no side files are, looking for them changes nothing. -/
theorem Serves.run_settle (h : c.Serves w db) : c.settle.run w = (.ok (), w) := by
  unfold settle
  cases hseat : c.seat with
  | spare index => rfl
  | file place =>
    cases c.access.alone with
    | true => rfl
    | false =>
      -- the journal is looked for first; the files are the same when the log is
      obtain ⟨content, hfile, -⟩ := exists_content_of_database? hseat h.database
      obtain ⟨hjournal, hlog⟩ := h.free place hseat
      have hfirst := run_changeFiles (FileTree.settleJournal?_of_free hfile hjournal c.access)
      have hsecond := run_changeFiles (FileTree.settleLog?_of_free hfile hlog c.access)
      exact (Work.run_bind_ok hfirst _).trans hsecond

theorem Serves.run_read (h : c.Serves w db) : c.read.run w = (.ok db, w) := by
  refine (Work.run_bind_ok h.run_settle _).trans ?_
  refine (Work.run_bind_ok (Work.run_get _) _).trans ?_
  rw [h.database]
  rfl

/-- A question is answered from the database, and nothing changes. -/
theorem Serves.run_query {α : Type} (h : c.Serves w db) (ask : Database → Except Fault α) :
    (c.query ask).run w = (ask db, w) :=
  run_query_of_read h.run_read ask

/-- What the connections to other databases serve in one workspace they serve in another. -/
def KeepsOthers (c : Connection) (w w' : Workspace) : Prop :=
  ∀ (other : Connection) (db : Database), other.seat ≠ c.seat → other.Serves w db →
    other.Serves w' db

theorem KeepsOthers.refl (c : Connection) (w : Workspace) : c.KeepsOthers w w :=
  fun _ _ _ h => h

theorem keepsOthers_setSpare {index : Nat} (hseat : c.seat = .spare index) (w : Workspace)
    (new : Database) : c.KeepsOthers w { w with spares := w.spares.set index new } := by
  intro other db hne h
  refine ⟨h.mayChange, ?_, h.free⟩
  have hdb := h.database
  rw [database?] at hdb ⊢
  cases hother : other.seat with
  | file place => rwa [hother] at hdb
  | spare index' =>
    -- two seats among the spare databases differ in the index
    have hindex : index ≠ index' := fun heq => hne (by rw [hother, hseat, heq])
    rw [hother] at hdb
    exact (List.getElem?_set_ne hindex).trans hdb

theorem keepsOthers_putFile {place : List String} {old : Content}
    (hseat : c.seat = .file place) (hfile : w.files.at? place = some (.file old)) (new : Content) :
    c.KeepsOthers w { w with files := w.files.put place (.file new) } := by
  intro other db hne h
  -- the other file is still there, and the names of its side files are still free
  refine ⟨h.mayChange, ?_, fun place' hplace' => ?_⟩
  · cases hother : other.seat with
    | spare index =>
      have hdb := h.database
      rw [database?, hother] at hdb ⊢
      exact hdb
    | file place' =>
      obtain ⟨content, hkept, hdb⟩ := exists_content_of_database? hother h.database
      have hplace : place' ≠ place := fun heq => hne (by rw [hother, hseat, heq])
      rw [database?, hother]
      simp only [FileTree.at?_put_file_of_ne hfile hkept hplace new, FileTree.content?,
        Option.bind_some, hdb]
  · obtain ⟨hjournal, hlog⟩ := h.free place' hplace'
    exact ⟨hjournal.put_file hfile new, hlog.put_file hfile new⟩

theorem write_of_mayChange (h : c.access.mayChange = true) (new : Database) :
    c.write new = match c.seat with
      | .spare index => modify fun w => { w with spares := w.spares.set index new }
      | .file place => changeFiles (FileTree.writeDatabase? place new) := by
  unfold write
  rw [h]
  rfl

/-- Another database is written, and the connection serves it from then on. -/
theorem Serves.run_write (h : c.Serves w db) (new : Database) :
    ∃ w', (c.write new).run w = (.ok (), w') ∧ c.Serves w' new ∧ c.KeepsOthers w w' := by
  rw [write_of_mayChange h.mayChange]
  cases hseat : c.seat with
  | spare index =>
    refine ⟨{ w with spares := w.spares.set index new }, rfl, ⟨h.mayChange, ?_, ?_⟩,
      keepsOthers_setSpare hseat w new⟩
    · have hindex : index < w.spares.length := by
        have hdb := h.database
        rw [database?, hseat] at hdb
        exact (List.getElem?_eq_some_iff.mp hdb).1
      rw [database?, hseat]
      exact List.getElem?_set_self hindex
    · intro place hplace
      rw [hseat] at hplace
      cases hplace
  | file place =>
    -- the journal that is made and erased on the way leaves only the file changed
    obtain ⟨content, hfile, -⟩ := exists_content_of_database? hseat h.database
    obtain ⟨hjournal, hlog⟩ := h.free place hseat
    refine ⟨{ w with files := w.files.put place (.file (.database new)) },
      run_changeFiles (FileTree.writeDatabase?_of_free hfile hjournal new), ⟨h.mayChange, ?_, ?_⟩,
      keepsOthers_putFile hseat hfile _⟩
    · rw [database?, hseat]
      simp only [FileTree.at?_put_self hfile, FileTree.content?, Content.database?,
        Option.bind_some]
    · intro other hother
      rw [hseat] at hother
      cases hother
      exact ⟨hjournal.put_file hfile _, hlog.put_file hfile _⟩

/-- A change is carried out, whether its outcome is a fault or not. -/
theorem Serves.run_update {α : Type} (h : c.Serves w db) (writes : Bool)
    (change : Database → Except Fault α × Database) :
    ∃ w', (c.update writes change).run w = ((change db).1, w') ∧ c.Serves w' (change db).2 ∧
      c.KeepsOthers w w' := by
  by_cases hwrites : writes = true ∨ (change db).2 ≠ db
  · obtain ⟨w', hrun, hserves⟩ := h.run_write (change db).2
    exact ⟨w', run_update_of_write h.run_read rfl hwrites hrun, hserves⟩
  · -- nothing is written, and then the database has not changed
    obtain ⟨hwrites, hsame⟩ := not_or.mp hwrites
    have hsame := Decidable.not_not.mp hsame
    have hrun : (c.update writes change).run w = ((change db).1, w) :=
      run_update_of_same h.run_read (Prod.ext rfl hsame) (Bool.eq_false_iff.mpr hwrites)
    exact ⟨w, hrun, hsame.symm ▸ h, KeepsOthers.refl c w⟩

/-- What can be made in the database is made, unless it is there. -/
theorem Serves.run_make (h : c.Serves w db) (make : Database → Except Fault Database)
    {new : Database} (hnew : make db = .ok new) :
    ∃ w', (c.make make).run w = (.ok (), w') ∧ c.Serves w' new ∧ c.KeepsOthers w w' := by
  by_cases hsame : new = db
  · subst hsame
    exact ⟨w, run_make_of_same h.run_read hnew, h, KeepsOthers.refl c w⟩
  · obtain ⟨w', hrun, hserves⟩ := h.run_write new
    exact ⟨w', run_make_of_write h.run_read hnew hsame hrun, hserves⟩

/-- What cannot be made in the database is not made. -/
theorem Serves.run_make_error (h : c.Serves w db) (make : Database → Except Fault Database)
    {fault : Fault} (hmake : make db = .error fault) : (c.make make).run w = (.error fault, w) := by
  have hfails : (Action.ofExcept (make db)).run w = (.error fault, w) := by
    rw [hmake]
    rfl
  exact (Work.run_bind_ok h.run_read _).trans (Work.run_bind_error hfails _)

/-! ## §4 Opening -/

/-- The five tables are made in the database. -/
theorem Serves.run_openTables (h : c.Serves w db) :
    ∃ w', c.openTables.run w = (.ok (), w') ∧ c.Serves w' db.openCatalog ∧ c.KeepsOthers w w' :=
  h.run_make _ rfl

end Connection

end MetadataCatalog
