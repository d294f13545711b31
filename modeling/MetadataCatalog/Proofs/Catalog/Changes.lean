import MetadataCatalog.Proofs.Catalog.Connections
import MetadataCatalog.Proofs.Catalog.Settling

/-!
# Changes of databases

What a connection does is taken apart. To read is to tidy up and to look (`run_read_eq_ok_iff`), and
whatever is made or changed is a database that was read and, if it is another one afterwards,
written (`Connection.Changes`). A change is confined to its own database: what any other connection
finds afterwards was there before (`Changes.onlyThrough`). And it leaves its own files quiet
(`quiet_of_write`, `quiet_of_changes`).

About an empty database nothing is claimed, since a new file is one.
-/

namespace MetadataCatalog

/-- A file that holds a database that is not empty holds it as such. -/
theorem Content.eq_database {content : Content} {db : Database}
    (h : content.database? = some db) (hne : db ≠ .empty) : content = .database db := by
  cases content with
  | database found => rw [Option.some.inj h]
  | _ =>
    simp only [Content.database?] at h
    split at h
    · exact absurd (Option.some.inj h).symm hne
    · cases h

namespace Connection

variable {c other : Connection} {w w' w'' : Workspace} {db old new : Database}

/-! ## §1 Reading -/

/-- The files after a connection has tidied up beside its database. -/
def settleFiles? (c : Connection) (files : Files) : Option Files :=
  match c.seat, c.access.alone with
  | .file place, false => FileTree.settle? place c.access files
  | _, _ => some files

theorem run_changeFiles_eq_ok_iff {change : Files → Option Files} :
    (changeFiles change).run w = (.ok (), w') ↔
      ∃ files, change w.files = some files ∧ w' = { w with files } := by
  unfold changeFiles
  rw [Work.run_bind_ok (Work.run_get _)]
  cases change w.files with
  | none =>
    refine ⟨fun h => ?_, ?_⟩
    · cases h
    · rintro ⟨files, hfiles, -⟩
      cases hfiles
  | some files =>
    constructor
    · intro h
      cases h
      exact ⟨files, rfl, rfl⟩
    · rintro ⟨files', hfiles, rfl⟩
      cases hfiles
      rfl

theorem settleFiles?_file {place : List String} (hseat : c.seat = .file place)
    (halone : c.access.alone = false) (files : Files) :
    c.settleFiles? files = FileTree.settle? place c.access files := by
  rw [settleFiles?, hseat, halone]

theorem settleFiles?_spare {index : Nat} (hseat : c.seat = .spare index) (files : Files) :
    c.settleFiles? files = some files := by
  rw [settleFiles?, hseat]

theorem settleFiles?_alone (halone : c.access.alone = true) (files : Files) :
    c.settleFiles? files = some files := by
  rw [settleFiles?, halone]
  cases c.seat <;> rfl

theorem run_settle_eq_ok_iff :
    c.settle.run w = (.ok (), w') ↔
      ∃ files, c.settleFiles? w.files = some files ∧ w' = { w with files } := by
  have hidle : (return () : Action Unit).run w = (.ok (), w') ↔
      ∃ files, some w.files = some files ∧ w' = { w with files } := by
    constructor
    · intro h
      cases h
      exact ⟨w.files, rfl, rfl⟩
    · rintro ⟨files, hfiles, rfl⟩
      cases hfiles
      rfl
  cases hseat : c.seat with
  | spare index =>
    rw [settleFiles?_spare hseat, settle, hseat]
    exact hidle
  | file place =>
    cases halone : c.access.alone with
    | true =>
      rw [settleFiles?_alone halone, settle, hseat, halone]
      exact hidle
    | false =>
      rw [settleFiles?_file hseat halone, settle, hseat, halone, FileTree.settle?]
      constructor
      · intro h
        obtain ⟨_, w₁, hjournal, hlog⟩ := Work.exists_of_run_bind h
        obtain ⟨files₁, hfirst, rfl⟩ := run_changeFiles_eq_ok_iff.mp hjournal
        obtain ⟨files, hsecond, rfl⟩ := run_changeFiles_eq_ok_iff.mp hlog
        exact ⟨files, Option.bind_eq_some_iff.mpr ⟨files₁, hfirst, hsecond⟩, rfl⟩
      · rintro ⟨files, hfiles, rfl⟩
        obtain ⟨files₁, hfirst, hsecond⟩ := Option.bind_eq_some_iff.mp hfiles
        have hjournal := run_changeFiles_eq_ok_iff.mpr ⟨files₁, hfirst, rfl⟩
        exact (Work.run_bind_ok hjournal _).trans
          (run_changeFiles_eq_ok_iff.mpr ⟨files, hsecond, rfl⟩)

/-- **To read** is to tidy up and then to look. -/
theorem run_read_eq_ok_iff :
    c.read.run w = (.ok db, w') ↔
      ∃ files, c.settleFiles? w.files = some files ∧ w' = { w with files } ∧
        c.database? w' = some db := by
  unfold read
  constructor
  · intro h
    obtain ⟨_, w₁, hsettle, hrest⟩ := Work.exists_of_run_bind h
    obtain ⟨files, hfiles, rfl⟩ := run_settle_eq_ok_iff.mp hsettle
    rw [Work.run_bind_ok (Work.run_get _)] at hrest
    cases hdb : c.database? { w with files } with
    | none =>
      rw [hdb] at hrest
      cases hrest
    | some found =>
      rw [hdb] at hrest
      cases hrest
      exact ⟨files, hfiles, rfl, hdb⟩
  · rintro ⟨files, hfiles, rfl, hdb⟩
    have hsettle := run_settle_eq_ok_iff.mpr ⟨files, hfiles, rfl⟩
    refine (Work.run_bind_ok hsettle _).trans ?_
    refine (Work.run_bind_ok (Work.run_get _) _).trans ?_
    rw [hdb]
    rfl

theorem exists_of_query {α : Type} {ask : Database → Except Fault α} {a : α}
    (h : (c.query ask).run w = (.ok a, w')) :
    ∃ db, c.read.run w = (.ok db, w') ∧ ask db = .ok a := by
  obtain ⟨db, w₁, hread, hask⟩ := Work.exists_of_run_bind h
  obtain ⟨hanswer, rfl⟩ := Prod.mk.inj hask
  exact ⟨db, hread, hanswer⟩

/-! ## §2 What is found -/

/-- What any connection finds afterwards was there before, unless it finds an empty database. -/
def NothingNew (w w' : Workspace) : Prop :=
  ∀ (c : Connection) (db : Database), db ≠ .empty →
    c.database? w' = some db → c.database? w = some db

/-- What connections to other databases find afterwards was there before. -/
def OnlyThrough (c : Connection) (w w' : Workspace) : Prop :=
  ∀ (other : Connection) (db : Database), other.seat ≠ c.seat → db ≠ .empty →
    other.database? w' = some db → other.database? w = some db

theorem NothingNew.refl (w : Workspace) : NothingNew w w :=
  fun _ _ _ h => h

theorem NothingNew.onlyThrough (h : NothingNew w w') (c : Connection) : c.OnlyThrough w w' :=
  fun other db _ hne hdb => h other db hne hdb

theorem OnlyThrough.trans (h : c.OnlyThrough w w') (h' : c.OnlyThrough w' w'') :
    c.OnlyThrough w w'' :=
  fun other db hseat hne hdb => h other db hseat hne (h' other db hseat hne hdb)

theorem database?_of_file {place : List String} {content : Content} (hseat : c.seat = .file place)
    (h : w.files.at? place = some (.file content)) : c.database? w = content.database? := by
  rw [database?, hseat]
  simp only [h, Option.bind_some, FileTree.content?]

theorem database?_file_iff {place : List String} (hseat : c.seat = .file place)
    (hne : db ≠ .empty) :
    c.database? w = some db ↔ w.files.at? place = some (.file (.database db)) := by
  constructor
  · intro h
    obtain ⟨content, hat, hdb⟩ := exists_content_of_database? hseat h
    rw [hat, Content.eq_database hdb hne]
  · intro h
    rw [database?_of_file hseat h]
    rfl

theorem database?_spare {index : Nat} (hseat : c.seat = .spare index) (w : Workspace) :
    c.database? w = w.spares[index]? := by
  rw [database?, hseat]

/-- Where no database comes into being in the files, nothing new is found. -/
theorem nothingNew_of_files {files : Files}
    (h : ∀ place db, files.at? place = some (.file (.database db)) →
      w.files.at? place = some (.file (.database db))) :
    NothingNew w { w with files } := by
  intro c db hne hdb
  cases hseat : c.seat with
  | spare index =>
    rw [database?_spare hseat] at hdb ⊢
    exact hdb
  | file place =>
    rw [database?_file_iff hseat hne] at hdb ⊢
    exact h place db hdb

/-- To read finds the database that was there, and brings no other about. -/
theorem of_read (h : c.read.run w = (.ok db, w')) :
    c.database? w = some db ∧ c.database? w' = some db ∧ NothingNew w w' := by
  obtain ⟨files, hfiles, rfl, hdb⟩ := run_read_eq_ok_iff.mp h
  have hsame : files = w.files →
      c.database? w = some db ∧ c.database? { w with files } = some db ∧
        NothingNew w { w with files } := by
    rintro rfl
    exact ⟨hdb, hdb, NothingNew.refl w⟩
  cases hseat : c.seat with
  | spare index =>
    rw [settleFiles?_spare hseat] at hfiles
    exact hsame (Option.some.inj hfiles).symm
  | file place =>
    cases halone : c.access.alone with
    | true =>
      rw [settleFiles?_alone halone] at hfiles
      exact hsame (Option.some.inj hfiles).symm
    | false =>
      rw [settleFiles?_file hseat halone] at hfiles
      have hpreserves := FileTree.preserves_settle? hfiles
      obtain ⟨content, hat, hcontent⟩ := exists_content_of_database? hseat hdb
      refine ⟨?_, hdb, nothingNew_of_files hpreserves.databases⟩
      rw [database?_of_file hseat ((hpreserves.own content).mp hat), hcontent]

/-! ## §3 Writing -/

theorem mayChange_of_write (h : (c.write new).run w = (.ok (), w')) :
    c.access.mayChange = true := by
  cases hchange : c.access.mayChange with
  | true => rfl
  | false =>
    unfold write at h
    rw [hchange] at h
    cases h

theorem run_write_spare {index : Nat} (hseat : c.seat = .spare index) :
    (c.write new).run w = (.ok (), w') ↔
      c.access.mayChange = true ∧ w' = { w with spares := w.spares.set index new } := by
  constructor
  · intro h
    have hchange := mayChange_of_write h
    rw [write_of_mayChange hchange, hseat] at h
    cases h
    exact ⟨hchange, rfl⟩
  · rintro ⟨hchange, rfl⟩
    rw [write_of_mayChange hchange, hseat]
    rfl

theorem run_write_file {place : List String} (hseat : c.seat = .file place) :
    (c.write new).run w = (.ok (), w') ↔
      c.access.mayChange = true ∧
        ∃ files, FileTree.writeDatabase? place new w.files = some files ∧
          w' = { w with files } := by
  constructor
  · intro h
    have hchange := mayChange_of_write h
    rw [write_of_mayChange hchange, hseat] at h
    exact ⟨hchange, run_changeFiles_eq_ok_iff.mp h⟩
  · rintro ⟨hchange, hfiles⟩
    rw [write_of_mayChange hchange, hseat]
    exact run_changeFiles_eq_ok_iff.mpr hfiles

/-- What has been written is found, and everything else that is found was there before. -/
theorem of_write (hold : c.database? w = some old) (h : (c.write new).run w = (.ok (), w')) :
    c.database? w' = some new ∧ c.OnlyThrough w w' := by
  cases hseat : c.seat with
  | spare index =>
    obtain ⟨-, rfl⟩ := (run_write_spare hseat).mp h
    rw [database?_spare hseat] at hold ⊢
    refine ⟨List.getElem?_set_self (List.getElem?_eq_some_iff.mp hold).1, ?_⟩
    intro other db hne _ hdb
    cases hother : other.seat with
    | spare index' =>
      have hindex : index ≠ index' := fun heq => hne (by rw [hother, hseat, heq])
      rw [database?_spare hother] at hdb ⊢
      exact (List.getElem?_set_ne hindex).symm.trans hdb
    | file place =>
      rw [database?, hother] at hdb ⊢
      exact hdb
  | file place =>
    obtain ⟨-, files, hfiles, rfl⟩ := (run_write_file hseat).mp h
    obtain ⟨content, hat, -⟩ := exists_content_of_database? hseat hold
    simp only [FileTree.writeDatabase?] at hfiles
    split at hfiles
    · cases hfiles
      have hnew := FileTree.at?_put_self hat (.file (.database new))
      constructor
      · rw [database?_of_file hseat ((FileTree.at?_erase_side .journal).mpr hnew)]
        rfl
      · intro other db hne hnonempty hdb
        cases hother : other.seat with
        | spare index =>
          rw [database?_spare hother] at hdb ⊢
          exact hdb
        | file place' =>
          have hplace : place' ≠ place := fun heq => hne (by rw [hother, hseat, heq])
          rw [database?_file_iff hother hnonempty] at hdb ⊢
          have hput := ((FileTree.at?_erase_iff rfl).mp hdb).2
          rwa [← FileTree.labelAt?_eq_some_iff rfl, FileTree.labelAt?_put_file_of_ne hat hplace,
            FileTree.labelAt?_eq_some_iff rfl] at hput
    · cases hfiles

/-! ## §4 Changes -/

/-- One database is read and another one written, or it stays the same one. -/
def Changes (c : Connection) (old new : Database) (w w' : Workspace) : Prop :=
  ∃ w₁, c.read.run w = (.ok old, w₁) ∧
    (new = old ∧ w' = w₁ ∨ (c.write new).run w₁ = (.ok (), w'))

theorem exists_changes_of_make {make : Database → Except Fault Database}
    (h : (c.make make).run w = (.ok (), w')) :
    ∃ old new, make old = .ok new ∧ c.Changes old new w w' := by
  unfold Connection.make at h
  obtain ⟨old, w₁, hread, hrest⟩ := Work.exists_of_run_bind h
  obtain ⟨new, hnew, hwrite⟩ := Work.exists_of_run_bind_same rfl hrest
  refine ⟨old, new, hnew, w₁, hread, ?_⟩
  by_cases hsame : new = old
  · rw [if_neg (not_not_intro hsame)] at hwrite
    cases hwrite
    exact Or.inl ⟨hsame, rfl⟩
  · rw [if_pos hsame] at hwrite
    exact Or.inr hwrite

theorem exists_changes_of_update {α : Type} {writes : Bool}
    {change : Database → Except Fault α × Database} {a : α}
    (h : (c.update writes change).run w = (.ok a, w')) :
    ∃ old, (change old).1 = .ok a ∧ c.Changes old (change old).2 w w' := by
  unfold update at h
  obtain ⟨old, w₁, hread, hrest⟩ := Work.exists_of_run_bind h
  by_cases hwrites : (writes || decide ((change old).2 ≠ old)) = true
  · simp only [hwrites, if_true] at hrest
    obtain ⟨_, w₂, hwrite, hend⟩ := Work.exists_of_run_bind hrest
    obtain ⟨houtcome, rfl⟩ := Prod.mk.inj hend
    exact ⟨old, houtcome, w₁, hread, Or.inr hwrite⟩
  · simp only [hwrites, Bool.false_eq_true, if_false] at hrest
    simp only [Bool.or_eq_true, decide_eq_true_eq, not_or, Decidable.not_not] at hwrites
    obtain ⟨houtcome, rfl⟩ := Prod.mk.inj hrest
    exact ⟨old, houtcome, w₁, hread, Or.inl ⟨hwrites.2, rfl⟩⟩

namespace Changes

variable (h : c.Changes old new w w')

include h

theorem database_old : c.database? w = some old := by
  obtain ⟨w₁, hread, -⟩ := h
  exact (of_read hread).1

theorem database_new : c.database? w' = some new := by
  obtain ⟨w₁, hread, ⟨rfl, rfl⟩ | hwrite⟩ := h
  · exact (of_read hread).2.1
  · exact (of_write (of_read hread).2.1 hwrite).1

theorem onlyThrough : c.OnlyThrough w w' := by
  obtain ⟨w₁, hread, ⟨rfl, rfl⟩ | hwrite⟩ := h
  · exact (of_read hread).2.2.onlyThrough c
  · exact ((of_read hread).2.2.onlyThrough c).trans (of_write (of_read hread).2.1 hwrite).2

/-- A change is made in the files or in one of the spare databases, and nothing more is shared. -/
theorem spares_eq : w'.shared = w.shared ∧
    ((∃ place, c.seat = .file place) ∧ w'.spares = w.spares ∨
      (∃ index, c.seat = .spare index ∧ w'.spares = w.spares.set index new) ∧
        w'.files = w.files) := by
  have hdb := h.database_old
  obtain ⟨w₁, hread, hrest⟩ := h
  obtain ⟨files, hfiles, rfl, -⟩ := run_read_eq_ok_iff.mp hread
  cases hseat : c.seat with
  | file place =>
    rcases hrest with ⟨-, rfl⟩ | hwrite
    · exact ⟨rfl, Or.inl ⟨⟨place, rfl⟩, rfl⟩⟩
    · obtain ⟨-, files', -, rfl⟩ := (run_write_file hseat).mp hwrite
      exact ⟨rfl, Or.inl ⟨⟨place, rfl⟩, rfl⟩⟩
  | spare index =>
    rw [settleFiles?_spare hseat] at hfiles
    cases hfiles
    rcases hrest with ⟨rfl, rfl⟩ | hwrite
    · rw [database?_spare hseat] at hdb
      obtain ⟨hindex, hold⟩ := List.getElem?_eq_some_iff.mp hdb
      exact ⟨rfl, Or.inr ⟨⟨index, rfl, by rw [← hold, List.set_getElem_self]⟩, rfl⟩⟩
    · obtain ⟨-, rfl⟩ := (run_write_spare hseat).mp hwrite
      exact ⟨rfl, Or.inr ⟨⟨index, rfl, rfl⟩, rfl⟩⟩

end Changes

/-! ## §5 Quiet files -/

section Quiet

variable {place : List String} (hseat : c.seat = .file place) (halone : c.access.alone = false)

include hseat halone

/-- What has been read by who may change it has quiet files. -/
theorem quiet_of_read (hplace : FileTree.IsDotless place) (hne : db ≠ .empty)
    (hchange : c.access.mayChange = true) (h : c.read.run w = (.ok db, w')) :
    w'.files.JournalQuiet place ∧ w'.files.isPresent (SideFile.log.place place) = false ∧
      FileTree.Tidies place w.files w'.files := by
  obtain ⟨hdb, -, -⟩ := of_read h
  obtain ⟨files, hfiles, rfl, -⟩ := run_read_eq_ok_iff.mp h
  rw [settleFiles?_file hseat halone] at hfiles
  exact (FileTree.quiet_of_settle? hplace ((database?_file_iff hseat hne).mp hdb) hchange hfiles).2

/-- **A database that has been written** has neither a journal nor a log. -/
theorem quiet_of_write (hplace : FileTree.IsDotless place) (hold : old ≠ .empty)
    (hread : c.read.run w = (.ok old, w')) (hwrite : (c.write new).run w' = (.ok (), w'')) :
    (∀ access, w''.files.Quiet place access) ∧ FileTree.Tidies place w.files w''.files := by
  obtain ⟨-, hlog, htidies⟩ := quiet_of_read hseat halone hplace hold
    (mayChange_of_write hwrite) hread
  have hat := (database?_file_iff hseat hold).mp (of_read hread).2.1
  obtain ⟨-, files, hfiles, rfl⟩ := (run_write_file hseat).mp hwrite
  obtain ⟨-, hjournal, hlog, htidies'⟩ := FileTree.tidies_writeDatabase? hplace hat hlog hfiles
  exact ⟨fun access => ⟨Or.inl hjournal, Or.inl hlog⟩, htidies.trans htidies'⟩

/-- **A database that has been worked on twice** has quiet files, also for who may not change it. -/
theorem quiet_of_changes {mid : Database} (hplace : FileTree.IsDotless place)
    (hmid : mid ≠ .empty) (h : c.Changes old mid w w') (h' : c.Changes mid new w' w'') :
    w''.files.Quiet place c.access := by
  cases hchange : c.access.mayChange with
  | true =>
    obtain ⟨w₁, hread, ⟨-, rfl⟩ | hwrite⟩ := h'
    · obtain ⟨hjournal, hlog, -⟩ := quiet_of_read hseat halone hplace hmid hchange hread
      exact ⟨hjournal, Or.inl hlog⟩
    · exact (quiet_of_write hseat halone hplace hmid hread hwrite).1 c.access
  | false =>
    -- nothing is written, so the second reading follows the first one
    have hnot : ∀ {db : Database} {w₁ w₂ : Workspace}, ¬ (c.write db).run w₁ = (.ok (), w₂) :=
      fun hwrite => by simp [mayChange_of_write hwrite] at hchange
    obtain ⟨w₁, hread, ⟨rfl, rfl⟩ | hwrite⟩ := h
    · obtain ⟨w₂, hread', ⟨-, rfl⟩ | hwrite⟩ := h'
      · have hat := (database?_file_iff hseat hmid).mp (of_read hread).1
        obtain ⟨files, hfiles, rfl, -⟩ := run_read_eq_ok_iff.mp hread
        obtain ⟨files', hfiles', rfl, -⟩ := run_read_eq_ok_iff.mp hread'
        rw [settleFiles?_file hseat halone] at hfiles hfiles'
        obtain ⟨-, hquiet, rfl⟩ := FileTree.quiet_of_settle?_twice hat hchange hfiles hfiles'
        exact hquiet
      · exact absurd hwrite hnot
    · exact absurd hwrite hnot

end Quiet

end Connection

end MetadataCatalog
