import MetadataCatalog.Proofs.Catalog.DatasetNames
import MetadataCatalog.Proofs.Catalog.Transactions

/-!
# Registers

A register is the list of what has been registered so far: datasets with files, in the order in
which that was done, with all repetitions. It answers the same questions as the five tables, but
looks into the past for them:

- the number of a dataset is one more than there are different datasets before it in the register;
- the files of a dataset are all that were ever registered for it, each once, in the order in which
  they first came;
- a table has as many rows as there are different names, datasets or files of datasets.

`Register.tables` are the five tables that a register leads to, and the main results are that
registering one more dataset in them leads to the tables of the longer register
(`registered_tables`) and that they answer as the register does (`datasetId?_tables`,
`findFiles?_tables`, `count_tables`).
-/

namespace MetadataCatalog

/-- What has been registered: datasets with files, in the order in which that was done. -/
abbrev Register := List (Dataset × List String)

namespace Register

/-! ## §1 Answers of a register -/

/-- The registered datasets, in order and with repetitions. -/
def datasets (r : Register) : List Dataset :=
  r.map Prod.fst

/-- The names of one part of the registered datasets, in order and with repetitions. -/
def names (r : Register) (part : DatasetPart) : List String :=
  r.datasets.map (·.name part)

/-- The registered files, each with its dataset, in order and with repetitions. -/
def filePairs (r : Register) : List (Dataset × String) :=
  r.flatMap fun (d, files) => files.map fun name => (d, name)

/-- The number of a registered dataset: one more than there are different datasets before its first
registration. -/
def number? (r : Register) (d : Dataset) : Option Nat :=
  if d ∈ r.datasets then some (1 + (r.datasets.takeWhile (· != d)).eraseDups.length) else none

/-- The files that were registered for a dataset, in order and with repetitions. -/
def given (r : Register) (d : Dataset) : List String :=
  (r.filter (·.1 = d)).flatMap Prod.snd

/-- The files of a registered dataset: each that was ever registered for it once, in the order of
their first registrations. -/
def files? (r : Register) (d : Dataset) : Option (List String) :=
  if d ∈ r.datasets then some (r.given d).eraseDups else none

/-- The files of the dataset that a text names, as far as they are registered. -/
def filesFor (r : Register) (dataset : String) : List String :=
  match Dataset.ofText dataset with
  | .ok d => (r.files? d).getD []
  | .error _ => []

/-- How many different names, datasets, or files of datasets there are. -/
def count (r : Register) : CatalogTable → Nat
  | .names part => (r.names part).eraseDups.length
  | .datasets => r.datasets.eraseDups.length
  | .files => r.filePairs.eraseDups.length

theorem datasets_concat (r : Register) (d : Dataset) (files : List String) :
    (r ++ [(d, files)]).datasets = r.datasets ++ [d] := by
  simp [datasets]

theorem names_concat (r : Register) (d : Dataset) (files : List String) (part : DatasetPart) :
    (r ++ [(d, files)]).names part = r.names part ++ [d.name part] := by
  simp [names, datasets_concat]

theorem filePairs_concat (r : Register) (d : Dataset) (files : List String) :
    (r ++ [(d, files)]).filePairs = r.filePairs ++ files.map fun name => (d, name) := by
  simp [filePairs]

/-- The number of a registered dataset is its ordinal. -/
theorem number?_eq (r : Register) (d : Dataset) :
    r.number? d = if d ∈ r.datasets then some (ordinal r.datasets d) else none := by
  rw [number?, ordinal_eq_takeWhile, Nat.add_comm]

/-- Only registered datasets have a number. -/
theorem mem_datasets_of_number? {r : Register} {d : Dataset} {n : Nat}
    (h : r.number? d = some n) : d ∈ r.datasets := by
  unfold number? at h
  split at h
  · assumption
  · cases h

/-- A dataset gets its ordinal when it is registered. -/
theorem number?_concat_self (r : Register) (d : Dataset) (files : List String) :
    (r ++ [(d, files)]).number? d = some (ordinal r.datasets d) := by
  rw [number?_eq, datasets_concat, if_pos (by simp), ordinal_concat_self]

/-- A dataset that is registered for the first time gets the next number. -/
theorem number?_concat_of_not_mem {r : Register} {d : Dataset} (h : d ∉ r.datasets)
    (files : List String) :
    (r ++ [(d, files)]).number? d = some (1 + r.datasets.eraseDups.length) := by
  rw [number?_concat_self, ordinal_of_not_mem h, Nat.add_comm]

/-- What is registered later does not change the number of a dataset. -/
theorem number?_append_of_mem {r : Register} {d : Dataset} (h : d ∈ r.datasets)
    (later : Register) : (r ++ later).number? d = r.number? d := by
  have hmem : d ∈ datasets (r ++ later) := by
    rw [datasets, List.map_append]
    exact List.mem_append_left _ h
  rw [number?_eq, number?_eq, if_pos hmem, if_pos h, datasets, List.map_append,
    ← datasets, ordinal_append_of_mem h]

/-- Other datasets do not change the answers about a dataset. -/
theorem number?_concat_of_ne {d other : Dataset} (h : other ≠ d) (r : Register)
    (files : List String) : (r ++ [(other, files)]).number? d = r.number? d := by
  by_cases hd : d ∈ r.datasets
  · exact number?_append_of_mem hd _
  · have hnot : d ∉ datasets (r ++ [(other, files)]) := by
      rw [datasets_concat]
      simp [hd, Ne.symm h]
    rw [number?, number?, if_neg hnot, if_neg hd]

theorem files?_concat_of_ne {d other : Dataset} (h : other ≠ d) (r : Register)
    (files : List String) : (r ++ [(other, files)]).files? d = r.files? d := by
  rw [files?, files?, datasets_concat, given, given]
  simp [h, Ne.symm h]

/-- A dataset that is not registered has neither number nor files. -/
theorem number?_eq_none {r : Register} {d : Dataset} (h : d ∉ r.datasets) :
    r.number? d = none ∧ r.files? d = none := by
  rw [number?, files?, if_neg h, if_neg h]
  exact ⟨rfl, rfl⟩

/-- What it takes to list the files of a dataset: each file that was ever registered for it stands
in the list once, and of two files the one that came first stands first. -/
structure Lists (r : Register) (d : Dataset) (l : List String) : Prop where
  nodup : l.Nodup
  mem_iff : ∀ name, name ∈ l ↔ ∃ files, (d, files) ∈ r ∧ name ∈ files
  inOrder : l.Pairwise fun a b => (r.given d).idxOf a < (r.given d).idxOf b

theorem mem_given_iff (r : Register) (d : Dataset) (name : String) :
    name ∈ r.given d ↔ ∃ files, (d, files) ∈ r ∧ name ∈ files := by
  simp only [given, List.mem_flatMap, List.mem_filter, decide_eq_true_eq, Prod.exists]
  constructor
  · rintro ⟨e, files, ⟨hmem, rfl⟩, hname⟩
    exact ⟨files, hmem, hname⟩
  · rintro ⟨files, hmem, hname⟩
    exact ⟨d, files, ⟨hmem, rfl⟩, hname⟩

/-- A registered dataset has its files listed. -/
theorem exists_files? {r : Register} {d : Dataset} (h : d ∈ r.datasets) :
    ∃ l, r.files? d = some l ∧ r.Lists d l := by
  refine ⟨(r.given d).eraseDups, if_pos h, nodup_eraseDups _, fun name => ?_,
    pairwise_eraseDups _⟩
  rw [List.mem_eraseDups]
  exact mem_given_iff r d name

/-! ## §2 The tables of a register -/

/-- A dataset by the numbers of its parts. -/
def rowOf (r : Register) (d : Dataset) : DatasetRow where
  experiment := ordinal (r.names .experiment) d.experiment
  processing := ordinal (r.names .processing) d.processing
  tier := ordinal (r.names .tier) d.tier

/-- A file by the number of its dataset. -/
def fileRowOf (r : Register) (p : Dataset × String) : FileRow where
  dataset := ordinal r.datasets p.1
  name := p.2

/-- The five tables that a register leads to. -/
def tables (r : Register) : FilesTables where
  experiments := .ofList (r.names .experiment).eraseDups
  processing := .ofList (r.names .processing).eraseDups
  tiers := .ofList (r.names .tier).eraseDups
  datasets := .ofList (r.datasets.eraseDups.map r.rowOf)
  files := .ofList (r.filePairs.eraseDups.map r.fileRowOf)

theorem name_mem_names {r : Register} {d : Dataset} (h : d ∈ r.datasets) (part : DatasetPart) :
    d.name part ∈ r.names part :=
  List.mem_map_of_mem h

/-- A registered dataset is the only one with its row. -/
theorem rowOf_inj {r : Register} {c d : Dataset} (hc : c ∈ r.datasets)
    (h : r.rowOf c = r.rowOf d) : c = d := by
  simp only [rowOf, DatasetRow.mk.injEq] at h
  obtain ⟨hexperiment, hprocessing, htier⟩ := h
  have he := (ordinal_inj (name_mem_names hc .experiment)).mp hexperiment
  have hp := (ordinal_inj (name_mem_names hc .processing)).mp hprocessing
  have ht := (ordinal_inj (name_mem_names hc .tier)).mp htier
  obtain ⟨e, p, t⟩ := c
  obtain ⟨e', p', t'⟩ := d
  simp only [Dataset.name] at he hp ht
  rw [he, hp, ht]

/-- A file of a registered dataset is the only one with its row. -/
theorem fileRowOf_inj {r : Register} {p q : Dataset × String} (hq : q.1 ∈ r.datasets)
    (h : r.fileRowOf p = r.fileRowOf q) : p = q := by
  simp only [fileRowOf, FileRow.mk.injEq] at h
  exact Prod.ext ((ordinal_inj hq).mp h.1.symm).symm h.2

/-! ## §3 Registering one more -/

theorem rowFor_tables (r : Register) (d : Dataset) : r.tables.rowFor d = r.rowOf d := by
  simp only [FilesTables.rowFor, tables, Numbered.numberFor_ofList_eraseDups, rowOf]

theorem numberFor_tables (r : Register) (d : Dataset) :
    r.tables.numberFor d = ordinal r.datasets d := by
  rw [FilesTables.numberFor, rowFor_tables]
  exact Numbered.numberFor_ofList_map r.rowOf r.datasets d fun c hc => rowOf_inj hc

/-- No row changes when one more dataset is registered. -/
theorem rowOf_concat {r : Register} {c d : Dataset} (files : List String)
    (hc : c ∈ (r ++ [(d, files)]).datasets) : (r ++ [(d, files)]).rowOf c = r.rowOf c := by
  have hpart : ∀ part, ordinal ((r ++ [(d, files)]).names part) (c.name part) =
      ordinal (r.names part) (c.name part) := by
    intro part
    rw [names_concat]
    rw [datasets_concat, List.mem_append, List.mem_singleton] at hc
    rcases hc with hc | rfl
    · exact ordinal_append_of_mem (name_mem_names hc part) _
    · exact ordinal_concat_self _ _
  have he := hpart .experiment
  have hp := hpart .processing
  have ht := hpart .tier
  simp only [Dataset.name] at he hp ht
  simp only [rowOf, he, hp, ht]

theorem mem_datasets_of_mem_filePairs {r : Register} {p : Dataset × String}
    (h : p ∈ r.filePairs) : p.1 ∈ r.datasets := by
  simp only [filePairs, List.mem_flatMap, List.mem_map, Prod.exists] at h
  obtain ⟨d, files, hmem, name, -, rfl⟩ := h
  exact List.mem_map_of_mem hmem

theorem fileRowOf_concat {r : Register} {p : Dataset × String} {d : Dataset}
    (files : List String) (hp : p ∈ r.filePairs) :
    (r ++ [(d, files)]).fileRowOf p = r.fileRowOf p := by
  rw [fileRowOf, fileRowOf, datasets_concat,
    ordinal_append_of_mem (mem_datasets_of_mem_filePairs hp)]

/-- Files of a registered dataset are taken in one after the other. -/
theorem withFiles_ofList {r : Register} {d : Dataset} (hd : d ∈ r.datasets)
    (pairs : List (Dataset × String)) (files : List String) :
    FilesTables.withFiles (.ofList (pairs.eraseDups.map r.fileRowOf)) (ordinal r.datasets d)
        files =
      .ofList ((pairs ++ files.map fun name => (d, name)).eraseDups.map r.fileRowOf) := by
  induction files generalizing pairs with
  | nil => simp [FilesTables.withFiles]
  | cons name rest ih =>
    -- the first file is taken in, then the rest go on from the longer list of pairs
    have hfirst := Numbered.addNew_ofList_map r.fileRowOf pairs (d, name)
      fun p _ h => fileRowOf_inj hd h
    have hrest := ih (pairs ++ [(d, name)])
    rw [List.append_assoc, List.singleton_append] at hrest
    rw [List.map_cons, ← hrest, ← hfirst]
    rfl

/-- **One more registration**: registering a dataset with files in the tables of a register leads to
the tables of the longer register. -/
theorem registered_tables (r : Register) (d : Dataset) (files : List String) :
    r.tables.registered d files = (r ++ [(d, files)]).tables := by
  have hd : d ∈ (r ++ [(d, files)]).datasets := by simp [datasets_concat]
  have hdatasets : (r.tables).datasets.addNew (r.rowOf d) =
      .ofList ((r ++ [(d, files)]).datasets.eraseDups.map (r ++ [(d, files)]).rowOf) := by
    have hrows : (r ++ [(d, files)]).datasets.eraseDups.map (r ++ [(d, files)]).rowOf =
        (r ++ [(d, files)]).datasets.eraseDups.map r.rowOf :=
      List.map_congr_left fun c hc => rowOf_concat files (List.mem_eraseDups.mp hc)
    rw [hrows, datasets_concat]
    exact Numbered.addNew_ofList_map r.rowOf r.datasets d fun c hc => rowOf_inj hc
  have hfiles : FilesTables.withFiles r.tables.files (ordinal r.datasets d) files =
      .ofList ((r ++ [(d, files)]).filePairs.eraseDups.map (r ++ [(d, files)]).fileRowOf) := by
    have hrows : r.filePairs.eraseDups.map r.fileRowOf =
        r.filePairs.eraseDups.map (r ++ [(d, files)]).fileRowOf :=
      List.map_congr_left fun p hp => (fileRowOf_concat files (List.mem_eraseDups.mp hp)).symm
    have hnumber : ordinal r.datasets d = ordinal (r ++ [(d, files)]).datasets d := by
      rw [datasets_concat, ordinal_concat_self]
    rw [tables, hrows, hnumber, withFiles_ofList hd, filePairs_concat]
  rw [FilesTables.registered, rowFor_tables, numberFor_tables, hdatasets, hfiles]
  simp only [tables, names_concat, ← Numbered.addNew_ofList_eraseDups]
  rfl

/-! ## §4 The same answers -/

/-- The tables of a register number the datasets as the register does. -/
theorem datasetId?_tables (r : Register) (d : Dataset) : r.tables.datasetId? d = r.number? d := by
  have hrow := Numbered.numberOf?_ofList_map r.rowOf r.datasets d fun c hc => rowOf_inj hc
  simp only [FilesTables.datasetId?, tables, Numbered.numberOf?_ofList_eraseDups, number?_eq]
  by_cases hd : d ∈ r.datasets
  · have he := name_mem_names hd .experiment
    have hp := name_mem_names hd .processing
    have ht := name_mem_names hd .tier
    simp only [Dataset.name] at he hp ht
    simp only [he, hp, ht, if_true, Option.bind_eq_bind, Option.bind_some]
    exact hrow
  · -- if some part is unknown, the search ends there; if not, there is no row of the dataset
    rw [if_neg hd] at hrow ⊢
    by_cases he : d.experiment ∈ r.names .experiment
    · by_cases hp : d.processing ∈ r.names .processing
      · by_cases ht : d.tier ∈ r.names .tier
        · simp only [he, hp, ht, if_true, Option.bind_eq_bind, Option.bind_some]
          exact hrow
        · simp [he, hp, ht]
      · simp [he, hp]
    · simp [he]

theorem map_snd_filePairs_filter (r : Register) (d : Dataset) :
    (r.filePairs.filter (·.1 = d)).map Prod.snd = r.given d := by
  unfold given
  induction r with
  | nil => rfl
  | cons e rest ih =>
    obtain ⟨c, files⟩ := e
    have hcons : filePairs ((c, files) :: rest) =
        (files.map fun name => (c, name)) ++ filePairs rest := by
      simp [filePairs]
    rw [hcons, List.filter_append, List.map_append, ih]
    by_cases hc : c = d
    · simp [hc, List.filter_map, Function.comp_def]
    · simp [hc, List.filter_map, Function.comp_def]

/-- Under the number of a registered dataset stand its files. -/
theorem filesOf_tables {r : Register} {d : Dataset} (hd : d ∈ r.datasets) :
    r.tables.filesOf (ordinal r.datasets d) = (r.given d).eraseDups := by
  -- a row is that of a file of `d` exactly when its pair is
  have hpair : ∀ p : Dataset × String, ordinal r.datasets p.1 = ordinal r.datasets d ↔ p.1 = d := by
    intro p
    rw [eq_comm, ordinal_inj hd, eq_comm]
  calc r.tables.filesOf (ordinal r.datasets d)
      = r.filePairs.eraseDups.filterMap fun p =>
          if ordinal r.datasets p.1 = ordinal r.datasets d then some p.2 else none := by
        rw [FilesTables.filesOf, tables]
        rw [Numbered.filterMap_rows_ofList fun file : FileRow =>
          if file.dataset = ordinal r.datasets d then some file.name else none]
        rw [List.filterMap_map]
        rfl
    _ = (r.filePairs.eraseDups.filter (·.1 = d)).map Prod.snd := by
        simp only [hpair]
        induction r.filePairs.eraseDups with
        | nil => rfl
        | cons p rest ih => by_cases hp : p.1 = d <;> simp [hp, ih]
    _ = ((r.filePairs.filter (·.1 = d)).map Prod.snd).eraseDups := by
        rw [← eraseDups_filter, eraseDups_map]
        -- of pairs with one dataset the file says all
        intro p hp q hq h
        have hp := (List.mem_filter.mp hp).2
        have hq := (List.mem_filter.mp hq).2
        simp only [decide_eq_true_eq] at hp hq
        exact Prod.ext (hp.trans hq.symm) h
    _ = (r.given d).eraseDups := by
        rw [map_snd_filePairs_filter]

/-- The tables of a register list the files of a dataset as the register does. -/
theorem findFiles?_tables (r : Register) (d : Dataset) :
    r.tables.findFiles? d = r.files? d := by
  rw [FilesTables.findFiles?, datasetId?_tables, number?_eq, files?]
  by_cases hd : d ∈ r.datasets
  · rw [if_pos hd, if_pos hd, Option.map_some, filesOf_tables hd]
  · rw [if_neg hd, if_neg hd, Option.map_none]

/-- The tables of a register have as many rows as there are different things to be numbered. -/
theorem count_tables (r : Register) (table : CatalogTable) :
    r.tables.count table = r.count table := by
  cases table with
  | names part => cases part <;> simp [FilesTables.count, FilesTables.names, tables, count]
  | datasets => simp [FilesTables.count, tables, count]
  | files => simp [FilesTables.count, tables, count]

end Register

end MetadataCatalog
