import MetadataCatalog.Proofs.Catalog.Numbering

/-!
# Registering in one transaction

What registering a dataset with its files does to the five tables. When every statement is carried
out the tables afterwards are `registered`: each table has taken in what is new to it. How many
statements there are, and about which tables, depends on what the tables know already
(`statements`). As long as none of them is refused they are all carried out, and if one is, the
transaction ends there (`registration_tries`), with names or even the dataset half registered. Of
that nothing remains: a dataset is registered with all its files, or nothing is done at all
(`insertDataset_eq_or_error`).
-/

namespace MetadataCatalog

namespace FilesTables

variable {α β : Type} {t t' t'' : FilesTables} {refuses : Refuses}

/-! ## §1 The tables of names -/

@[simp]
theorem withNames_names (t : FilesTables) (part : DatasetPart) :
    t.withNames (t.names part) part = t := by
  cases part <;> rfl

/-! ## §2 What is registered -/

/-- The table of files with further files of a dataset, those that it has already left out. -/
def withFiles (files : Numbered FileRow) (dataset : Nat) (names : List String) :
    Numbered FileRow :=
  names.foldl (fun files name => files.addNew { dataset, name }) files

/-- A dataset by the numbers that its parts have or get. -/
def rowFor (t : FilesTables) (d : Dataset) : DatasetRow where
  experiment := t.experiments.numberFor d.experiment
  processing := t.processing.numberFor d.processing
  tier := t.tiers.numberFor d.tier

/-- The number that a dataset has or gets. -/
def numberFor (t : FilesTables) (d : Dataset) : Nat :=
  t.datasets.numberFor (t.rowFor d)

/-- The tables in which a dataset and its files have been registered. -/
def registered (t : FilesTables) (d : Dataset) (files : List String) : FilesTables where
  experiments := t.experiments.addNew d.experiment
  processing := t.processing.addNew d.processing
  tiers := t.tiers.addNew d.tier
  datasets := t.datasets.addNew (t.rowFor d)
  files := withFiles t.files (t.numberFor d) files

/-! ## §3 Statements that are tried -/

/-- The statements for a row of a table: it is looked for, and added unless it is there. -/
def lookup (table : CatalogTable) (isThere : Bool) : List CatalogTable :=
  if isThere then [table] else [table, table]

/-- The statements of a registration, each as the table that it is about. -/
def statements (t : FilesTables) (d : Dataset) (files : List String) : List CatalogTable :=
  lookup (.names .experiment) (t.experiments.numberOf? d.experiment).isSome ++
    (lookup (.names .processing) (t.processing.numberOf? d.processing).isSome ++
      (lookup (.names .tier) (t.tiers.numberOf? d.tier).isSome ++
        (lookup .datasets (t.datasets.numberOf? (t.rowFor d)).isSome ++
          -- one statement is prepared for all files, and then carried out for each
          ([.files] ++ files.map fun _ => .files))))

/-- Some of the statements that follow `tried` others is refused. -/
def Stops (refuses : Refuses) (tried : Nat) (asked : List CatalogTable) : Prop :=
  ∃ k table, asked[k]? = some table ∧ refuses (tried + k) table = true

theorem not_stops_nil (tried : Nat) : ¬ Stops refuses tried [] := by
  rintro ⟨k, table, hk, -⟩
  cases hk

theorem stops_singleton_iff {tried : Nat} {table : CatalogTable} :
    Stops refuses tried [table] ↔ refuses tried table = true := by
  constructor
  · rintro ⟨_ | k, other, hk, hrefused⟩
    · cases hk
      exact hrefused
    · cases hk
  · exact fun h => ⟨0, table, rfl, h⟩

/-- Statements stop in their first part, or behind it. -/
theorem stops_append_iff {tried : Nat} {asked more : List CatalogTable} :
    Stops refuses tried (asked ++ more) ↔
      Stops refuses tried asked ∨ Stops refuses (tried + asked.length) more := by
  constructor
  · rintro ⟨k, table, hk, hrefused⟩
    rcases Nat.lt_or_ge k asked.length with hlt | hge
    · rw [List.getElem?_append_left hlt] at hk
      exact .inl ⟨k, table, hk, hrefused⟩
    · rw [List.getElem?_append_right hge] at hk
      refine .inr ⟨k - asked.length, table, hk, ?_⟩
      rwa [Nat.add_assoc, Nat.add_sub_cancel' hge]
  · rintro (⟨k, table, hk, hrefused⟩ | ⟨k, table, hk, hrefused⟩)
    · have hlt : k < asked.length := (List.getElem?_eq_some_iff.mp hk).1
      exact ⟨k, table, by rwa [List.getElem?_append_left hlt], hrefused⟩
    · refine ⟨asked.length + k, table, ?_, by rwa [← Nat.add_assoc]⟩
      rwa [List.getElem?_append_right (Nat.le_add_right _ _), Nat.add_sub_cancel_left]

/-! ## §4 Transactions and their statements -/

theorem run_perform (refuses : Refuses) (s : Statement α) (session : Session) :
    (perform refuses s).run session =
      if refuses session.tried s.table then
        (.error .database, { session with tried := session.tried + 1 })
      else
        (.ok (session.tables.execute s).1, ⟨(session.tables.execute s).2, session.tried + 1⟩) := by
  show (if refuses session.tried s.table then _ else _ : Transaction α).run session = _
  split <;> rfl

/-- The transaction tries the statements `asked` one after the other. When one is refused it fails,
and else it succeeds with answer `a` and turns the tables `t` into `t'`. -/
structure Tries (refuses : Refuses) (m : Transaction α) (t : FilesTables)
    (asked : List CatalogTable) (a : α) (t' : FilesTables) : Prop where
  stopped : ∀ tried, Stops refuses tried asked →
    ∃ session, m.run ⟨t, tried⟩ = (.error .database, session)
  done : ∀ tried, ¬ Stops refuses tried asked →
    m.run ⟨t, tried⟩ = (.ok a, ⟨t', tried + asked.length⟩)

namespace Tries

theorem pure (a : α) (t : FilesTables) : Tries refuses (pure a) t [] a t where
  stopped tried h := absurd h (not_stops_nil tried)
  done _ _ := rfl

theorem perform (s : Statement α) (t : FilesTables) :
    Tries refuses (perform refuses s) t [s.table] (t.execute s).1 (t.execute s).2 where
  stopped tried h := by
    rw [run_perform, if_pos (stops_singleton_iff.mp h)]
    exact ⟨_, rfl⟩
  done tried h := by
    rw [run_perform, if_neg (mt stops_singleton_iff.mpr h)]
    rfl

theorem bind {m : Transaction α} {f : α → Transaction β} {asked more : List CatalogTable} {a : α}
    {b : β} (hm : Tries refuses m t asked a t') (hf : Tries refuses (f a) t' more b t'') :
    Tries refuses (m >>= f) t (asked ++ more) b t'' where
  stopped tried h := by
    by_cases hfirst : Stops refuses tried asked
    · obtain ⟨session, hrun⟩ := hm.stopped tried hfirst
      exact ⟨session, Work.run_bind_error hrun f⟩
    · -- the first part is carried out, so it is the second one that stops
      obtain ⟨session, hrun⟩ := hf.stopped _ ((stops_append_iff.mp h).resolve_left hfirst)
      exact ⟨session, (Work.run_bind_ok (hm.done tried hfirst) f).trans hrun⟩
  done tried h := by
    obtain ⟨hfirst, hsecond⟩ := not_or.mp (mt stops_append_iff.mpr h)
    rw [Work.run_bind_ok (hm.done tried hfirst) f, hf.done _ hsecond, List.length_append,
      Nat.add_assoc]

/-- What is made of the answer takes no statement. -/
theorem then_pure {m : Transaction α} {asked : List CatalogTable} {a : α}
    (hm : Tries refuses m t asked a t') (b : β) :
    Tries refuses (m >>= fun _ => Pure.pure b) t asked b t' := by
  have h := hm.bind (f := fun _ => Pure.pure b) (Tries.pure b t')
  rwa [List.append_nil] at h

/-- A row is looked for, and added where it is not found. -/
theorem findOrAdd (find : Statement (Option Nat)) (add : Statement Nat) {found : Option Nat}
    {number : Nat} (hfind : t.execute find = (found, t)) (hadd : t.execute add = (number, t'))
    (htable : add.table = find.table) :
    Tries refuses (do
        match ← FilesTables.perform refuses find with
        | some number => return number
        | none => FilesTables.perform refuses add)
      t (lookup find.table found.isSome) (found.getD number) (if found.isSome then t else t') := by
  have hfirst : Tries refuses _ t _ _ _ := Tries.perform find t
  rw [hfind] at hfirst
  cases found with
  | some known => exact hfirst.bind (Tries.pure known t)
  | none =>
    have hsecond : Tries refuses _ t _ _ _ := Tries.perform add t
    rw [hadd, htable] at hsecond
    exact hfirst.bind hsecond

end Tries

theorem numberOfName_tries (refuses : Refuses) (t : FilesTables) (part : DatasetPart)
    (name : String) :
    Tries refuses (numberOfName refuses part name) t
      (lookup (.names part) ((t.names part).numberOf? name).isSome)
      ((t.names part).numberFor name) (t.withNames ((t.names part).addNew name) part) := by
  rw [Numbered.addNew, apply_ite (t.withNames · part), withNames_names]
  exact Tries.findOrAdd (.findName part name) (.addName part name) rfl rfl rfl

theorem numberOfDataset_tries (refuses : Refuses) (t : FilesTables) (row : DatasetRow) :
    Tries refuses (numberOfDataset refuses row) t
      (lookup .datasets (t.datasets.numberOf? row).isSome) (t.datasets.numberFor row)
      { t with datasets := t.datasets.addNew row } := by
  rw [Numbered.addNew, apply_ite fun datasets => ({ t with datasets } : FilesTables)]
  exact Tries.findOrAdd (.findDataset row) (.addDataset row) rfl rfl rfl

theorem addFiles_tries (refuses : Refuses) (t : FilesTables) (dataset : Nat)
    (names : List String) :
    Tries refuses (addFiles refuses dataset names) t (names.map fun _ => .files) ()
      { t with files := withFiles t.files dataset names } := by
  induction names generalizing t with
  | nil => exact Tries.pure () t
  | cons name rest ih =>
    have hfirst : Tries refuses _ t _ _ _ := Tries.perform (.addFile { dataset, name }) t
    exact hfirst.bind (ih _)

/-- **A registration** tries its statements in order, and stops at the first that is refused. -/
theorem registration_tries (refuses : Refuses) (t : FilesTables) (d : Dataset)
    (files : List String) :
    Tries refuses (registration refuses d files) t (t.statements d files) (t.numberFor d)
      (t.registered d files) := by
  refine (numberOfName_tries refuses t .experiment d.experiment).bind ?_
  refine (numberOfName_tries refuses _ .processing d.processing).bind ?_
  refine (numberOfName_tries refuses _ .tier d.tier).bind ?_
  refine (numberOfDataset_tries refuses _ (t.rowFor d)).bind ?_
  refine (Tries.perform .prepareFile _).bind ?_
  exact (addFiles_tries refuses _ (t.numberFor d) files).then_pure (t.numberFor d)

/-! ## §5 All or nothing -/

/-- Where no statement is refused, the dataset is registered. -/
theorem insertDataset_of_not_stops {d : Dataset} {files : List String}
    (h : ¬ Stops refuses 0 (t.statements d files)) :
    t.insertDataset refuses d files = (.ok (t.numberFor d), t.registered d files) := by
  rw [insertDataset, commit, (registration_tries refuses t d files).done 0 h]

/-- Where one is refused, nothing is changed. -/
theorem insertDataset_of_stops {d : Dataset} {files : List String}
    (h : Stops refuses 0 (t.statements d files)) :
    t.insertDataset refuses d files = (.error .database, t) := by
  obtain ⟨session, hrun⟩ := (registration_tries refuses t d files).stopped 0 h
  rw [insertDataset, commit, hrun]

/-- **All or nothing**: whatever the database refuses, a dataset is registered with all its files
under the number that it has or gets, or the tables are as before. -/
theorem insertDataset_eq_or_error (refuses : Refuses) (t : FilesTables) (d : Dataset)
    (files : List String) :
    t.insertDataset refuses d files = (.ok (t.numberFor d), t.registered d files) ∨
      t.insertDataset refuses d files = (.error .database, t) := by
  by_cases h : Stops refuses 0 (t.statements d files)
  · exact .inr (insertDataset_of_stops h)
  · exact .inl (insertDataset_of_not_stops h)

/-- No statement is refused. -/
def obliging : Refuses := fun _ _ => false

/-- Where nothing is refused, a dataset is registered under the number that it has or gets. -/
theorem insertDataset_obliging (t : FilesTables) (d : Dataset) (files : List String) :
    t.insertDataset obliging d files = (.ok (t.numberFor d), t.registered d files) := by
  refine insertDataset_of_not_stops ?_
  rintro ⟨k, table, -, hrefused⟩
  cases hrefused

end FilesTables

end MetadataCatalog
