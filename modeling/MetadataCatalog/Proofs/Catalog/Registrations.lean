import MetadataCatalog.Proofs.Catalog.Databases

/-!
# Registrations found again

A dataset that has been registered is found under its number, and its files are among those that are
found, whatever was in the tables before (`FilesTables.findFiles?_registered`). A database in which
a registration has succeeded lets the tables be asked: no collection stands where one of them is
looked for (`Database.keeps_of_insertDataset`).
-/

namespace MetadataCatalog

/-! ## §1 Rows -/

namespace Numbered

variable {α : Type} [DecidableEq α]

/-- What has been added is found under the number that it had or got. -/
theorem numberOf?_addNew_self (t : Numbered α) (a : α) :
    (t.addNew a).numberOf? a = some (t.numberFor a) := by
  unfold addNew numberFor
  cases h : t.numberOf? a with
  | some number => simp [h]
  | none =>
    have hnone : t.rows.find? (fun row => row.2 = a) = none := by
      rwa [numberOf?, Option.map_eq_none_iff] at h
    simp [numberOf?, add, List.find?_append, hnone]

theorem mem_rows_addNew {t : Numbered α} {row : Nat × α} (h : row ∈ t.rows) (a : α) :
    row ∈ (t.addNew a).rows := by
  unfold addNew
  split
  · exact h
  · exact List.mem_append_left _ h

theorem exists_mem_rows_addNew (t : Numbered α) (a : α) :
    ∃ row ∈ (t.addNew a).rows, row.2 = a := by
  have h := numberOf?_addNew_self t a
  obtain ⟨row, hrow, -⟩ := Option.map_eq_some_iff.mp h
  exact ⟨row, List.mem_of_find?_eq_some hrow, by simpa using List.find?_some hrow⟩

end Numbered

/-! ## §2 Registered datasets -/

namespace FilesTables

theorem mem_rows_withFiles {files : Numbered FileRow} {row : Nat × FileRow} (h : row ∈ files.rows)
    (dataset : Nat) (names : List String) : row ∈ (withFiles files dataset names).rows := by
  induction names generalizing files with
  | nil => exact h
  | cons name rest ih => exact ih (Numbered.mem_rows_addNew h _)

/-- Each file that is added stands in a row. -/
theorem exists_mem_rows_withFiles (files : Numbered FileRow) (dataset : Nat) {names : List String}
    {name : String} (h : name ∈ names) :
    ∃ row ∈ (withFiles files dataset names).rows, row.2 = ⟨dataset, name⟩ := by
  induction names generalizing files with
  | nil => cases h
  | cons first rest ih =>
    rcases List.mem_cons.mp h with rfl | hrest
    · obtain ⟨row, hrow, hname⟩ := Numbered.exists_mem_rows_addNew files ⟨dataset, name⟩
      exact ⟨row, mem_rows_withFiles hrow dataset rest, hname⟩
    · exact ih _ hrest

theorem datasetId?_registered (t : FilesTables) (d : Dataset) (files : List String) :
    (t.registered d files).datasetId? d = some (t.numberFor d) := by
  simp only [datasetId?, registered, Numbered.numberOf?_addNew_self, Option.bind_eq_bind,
    Option.bind_some]
  exact Numbered.numberOf?_addNew_self t.datasets (t.rowFor d)

/-- **A registered dataset** is found with the files that it was registered with. -/
theorem findFiles?_registered (t : FilesTables) (d : Dataset) (files : List String) :
    ∃ found, (t.registered d files).findFiles? d = some found ∧ ∀ name ∈ files, name ∈ found := by
  refine ⟨_, by rw [findFiles?, datasetId?_registered, Option.map_some], fun name hname => ?_⟩
  obtain ⟨row, hrow, hcontents⟩ := exists_mem_rows_withFiles t.files (t.numberFor d) hname
  refine List.mem_filterMap.mpr ⟨row, hrow, ?_⟩
  simp [hcontents]

/-! ## §3 Refusals -/

/-- A statement that is carried out is not refused. -/
theorem not_refused_of_perform {α : Type} {refuses : Refuses} {s : Statement α} {a : α}
    {session session' : Session} (h : (perform refuses s).run session = (.ok a, session')) :
    refuses session.tried s.table = false := by
  rw [run_perform] at h
  split at h
  · cases h
  · next hnot => exact Bool.not_eq_true _ ▸ hnot

end FilesTables

namespace Database

variable {db : Database} {d : Dataset} {files : List String}

/-- A registration that succeeds has found all five tables. -/
theorem uncovered_of_registration {session session' : FilesTables.Session} {number : Nat}
    (h : (FilesTables.registration db.refuses d files).run session = (.ok number, session'))
    (table : CatalogTable) : db.covered table = false := by
  have hstep : ∀ {α : Type} {s : FilesTables.Statement α} {a : α} {s₁ s₂ : FilesTables.Session},
      (FilesTables.perform db.refuses s).run s₁ = (.ok a, s₂) → db.covered s.table = false :=
    fun hrun => FilesTables.not_refused_of_perform hrun
  unfold FilesTables.registration at h
  obtain ⟨_, _, hexperiment, h⟩ := Work.exists_of_run_bind h
  obtain ⟨_, _, hprocessing, h⟩ := Work.exists_of_run_bind h
  obtain ⟨_, _, htier, h⟩ := Work.exists_of_run_bind h
  obtain ⟨_, _, hdataset, h⟩ := Work.exists_of_run_bind h
  obtain ⟨_, _, hfile, -⟩ := Work.exists_of_run_bind h
  -- each table is looked into before anything is added
  obtain ⟨_, _, hexperiment, -⟩ := Work.exists_of_run_bind hexperiment
  obtain ⟨_, _, hprocessing, -⟩ := Work.exists_of_run_bind hprocessing
  obtain ⟨_, _, htier, -⟩ := Work.exists_of_run_bind htier
  obtain ⟨_, _, hdataset, -⟩ := Work.exists_of_run_bind hdataset
  have hexperiment := hstep hexperiment
  have hprocessing := hstep hprocessing
  have htier := hstep htier
  have hdataset := hstep hdataset
  have hfile := hstep hfile
  rcases table with (_ | _ | _) | _ | _
  · exact hexperiment
  · exact hprocessing
  · exact htier
  · exact hdataset
  · exact hfile

/-- **A registration that succeeds** has registered the dataset with its files in tables that can be
asked. -/
theorem keeps_of_insertDataset {number : Nat} (h : (db.insertDataset d files).1 = .ok number) :
    number = db.tables.numberFor d ∧
      (db.insertDataset d files).2.collections = db.collections ∧
      (db.insertDataset d files).2.Keeps (db.tables.registered d files) := by
  unfold insertDataset at h ⊢
  rcases FilesTables.insertDataset_eq_or_error db.refuses db.tables d files with hdone | herror
  · have huncovered : ∀ table, db.covered table = false := by
      simp only [FilesTables.insertDataset, FilesTables.commit] at hdone
      rcases hrun : (FilesTables.registration db.refuses d files).run ⟨db.tables, 0⟩ with
        ⟨_ | number, session⟩
      · rw [hrun] at hdone
        cases hdone
      · exact uncovered_of_registration hrun
    rw [hdone] at h ⊢
    exact ⟨(Except.ok.inj h).symm, rfl, ⟨rfl, huncovered⟩⟩
  · rw [herror] at h
    cases h

end Database

end MetadataCatalog
