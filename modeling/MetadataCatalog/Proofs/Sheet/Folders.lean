import MetadataCatalog.Proofs.Storage.Entries
import MetadataCatalog.Sheet.Workbook
import Mathlib.Data.List.Pairwise
import Mathlib.Data.String.Basic

/-!
# Sheets of folders

A folder is listed by the endings of its entries, in any case, and read by names that are put
together again, with the ending in small letters. Both speak of the same sheets
(`Workbook.folder_sheets`) exactly when no entry has the ending in another case and no path becomes
too long.
-/

namespace MetadataCatalog

/-! ## §1 Folders of sheets -/

/-- An entry gives a sheet when its name is that of the sheet with the ending `csv`, in any case. -/
def GivesSheet (entry sheet : String) : Prop :=
  ∃ ending, entry = sheet ++ "." ++ ending ∧ '.' ∉ ending.toList ∧ sheet ≠ "" ∧
    Text.lowerAscii ending = "csv"

/-- The records of a node that is a file of comma-separated records. -/
def FileTree.records? (node : FileTree Content) : Option (List (List String)) :=
  node.content?.bind Content.records?

/-- A path leads to a folder with the given entries, under names that a folder can hold. -/
structure IsFolder (tree : Files) (path : String) (entries : List (String × FileTree Content)) :
    Prop where
  folder : tree.node? path = some (.folder entries)
  names : ∀ e ∈ entries, Path.IsName e.1 ∧ Path.isUsable e.1 = true
  distinct : (entries.map Prod.fst).Nodup

/-- A folder in which whatever gives a sheet is a file of records. -/
structure IsSheetFolder (tree : Files) (path : String)
    (entries : List (String × FileTree Content)) : Prop extends IsFolder tree path entries where
  files : ∀ e ∈ entries, ∀ sheet, GivesSheet e.1 sheet → ∃ records, e.2.records? = some records

theorem exists_content_of_records? {node : FileTree Content} {records : List (List String)}
    (h : node.records? = some records) :
    ∃ content, node = .file content ∧ content.records? = some records := by
  cases node with
  | file content => exact ⟨content, rfl, h⟩
  | link target => cases h
  | folder entries => cases h

theorem givesSheet_csv {sheet : String} (h : sheet ≠ "") : GivesSheet (sheet ++ ".csv") sheet := by
  refine ⟨"csv", ?_, by decide, h, by decide⟩
  rw [String.append_assoc]
  rfl

theorem GivesSheet.ne_empty {entry sheet : String} (h : GivesSheet entry sheet) : sheet ≠ "" := by
  obtain ⟨-, -, -, hsheet, -⟩ := h
  exact hsheet

/-- An entry that gives a sheet could also be named with the ending in small letters. -/
theorem GivesSheet.isName {entry sheet : String} (h : GivesSheet entry sheet)
    (hname : Path.IsName entry) : Path.IsName (sheet ++ ".csv") := by
  obtain ⟨ending, rfl, -⟩ := h
  have hlast : (sheet ++ ".csv").toList.getLast? = some 'v' := by
    simp
  have hslash := hname.slash
  have hnul := hname.nul
  simp only [String.toList_append, List.mem_append, not_or] at hslash hnul
  refine ⟨?_, ?_, ?_, ?_, ?_⟩
  · simpa using hslash.1.1
  · simpa using hnul.1.1
  -- a name with another last character is another name
  all_goals
    intro heq
    rw [heq] at hlast
    cases hlast

namespace Workbook

theorem sheetOfEntry?_eq_some_iff {entry sheet : String} (h : Path.IsName entry) :
    sheetOfEntry? entry = some sheet ↔ GivesSheet entry sheet := by
  unfold sheetOfEntry? Path.hasExtension Path.extension? Path.stem?
  rw [h.name?, Option.bind_some, Option.map_some]
  rcases hsplit : Path.splitName entry with ⟨stem, ending⟩
  cases ending with
  | none =>
    constructor
    · intro hsome
      cases hsome
    · rintro ⟨ending, hentry, hdot, hsheet, -⟩
      rw [Path.splitName_eq_some_iff.mpr ⟨hentry, hdot, hsheet⟩] at hsplit
      cases hsplit
  | some ending =>
    obtain ⟨hentry, hdot, hstem⟩ := Path.splitName_eq_some_iff.mp hsplit
    have hcsv : Text.lowerAscii "csv" = "csv" := by decide
    show (if Text.sameIgnoringCase ending "csv" = true then some stem else none) = some sheet ↔ _
    rw [Text.sameIgnoringCase, hcsv, Option.ite_none_right_eq_some, beq_iff_eq]
    constructor
    · rintro ⟨hcase, hsome⟩
      cases hsome
      exact ⟨ending, hentry, hdot, hstem, hcase⟩
    · rintro ⟨ending', hentry', hdot', hsheet, hcase⟩
      -- a name is cut in only one way
      rw [Path.splitName_eq_some_iff.mpr ⟨hentry', hdot', hsheet⟩] at hsplit
      cases hsplit
      exact ⟨hcase, rfl⟩

/-- The sheets of a folder are listed in order, one for each entry that gives one. -/
theorem sheetNames_folder {tree : Files} {path : String}
    {entries : List (String × FileTree Content)}
    (hfolder : tree.node? path = some (.folder entries)) :
    ∃ names, (folder path).sheetNames tree = .ok names ∧
      names.Pairwise (fun a b => a ≤ b) ∧
      names.Perm (entries.filterMap fun e => sheetOfEntry? e.1) := by
  have hnames : tree.names? path = some (entries.map Prod.fst) := by
    rw [FileTree.names?, hfolder]
  let given := (entries.map Prod.fst).filterMap sheetOfEntry?
  -- the names are sorted by a test, which decides a total order
  have hsorted : (given.mergeSort fun a b => decide (a ≤ b)).Pairwise
      (fun a b => decide (a ≤ b) = true) :=
    List.pairwise_mergeSort
      (fun a b c hab hbc => by simpa using le_trans (of_decide_eq_true hab) (of_decide_eq_true hbc))
      (fun a b => by simpa using le_total a b) given
  refine ⟨given.mergeSort fun a b => decide (a ≤ b), ?_,
    hsorted.imp fun h => of_decide_eq_true h, ?_⟩
  · rw [sheetNames, hnames]
  · rw [← Function.comp_def, ← List.filterMap_map]
    exact List.mergeSort_perm given _

/-- Names that are not listed are missing, and no others. -/
theorem sheet_eq_missing_iff {tree : Files} {w : Workbook} {names : List String}
    (h : w.sheetNames tree = .ok names) (s : String) :
    (∃ missing available, w.sheet tree s = .error (.missingSheet missing available)) ↔
      s ∉ names := by
  unfold sheet
  rw [h]
  by_cases hmem : s ∈ names
  · cases w.table? tree s <;> simp [bind, Except.bind, hmem]
  · simp [bind, Except.bind, hmem]

theorem sheet_of_mem {tree : Files} {w : Workbook} {names : List String} {s : String}
    (h : w.sheetNames tree = .ok names) (hmem : s ∈ names) :
    w.sheet tree s = match w.table? tree s with
      | some table => .ok table
      | none => .error .workbook := by
  unfold sheet
  rw [h]
  simp only [bind, Except.bind, List.contains_iff_mem.mpr hmem]
  rfl

end Workbook

namespace IsFolder

variable {tree : Files} {path : String} {entries : List (String × FileTree Content)}

theorem opened (h : IsFolder tree path entries) :
    Workbook.ofPath tree path = .ok (.folder path) := by
  have hnode := h.folder
  rw [FileTree.node?] at hnode
  cases hplace : tree.placeOf path with
  | taken place =>
    rw [hplace] at hnode
    dsimp only at hnode
    simp only [Workbook.ofPath, hplace, hnode]
  | free above name =>
    rw [hplace] at hnode
    cases hnode
  | nowhere =>
    rw [hplace] at hnode
    cases hnode

theorem mem_names_iff (h : IsFolder tree path entries) {names : List String}
    (hnames : names.Perm (entries.filterMap fun e => Workbook.sheetOfEntry? e.1)) (s : String) :
    s ∈ names ↔ ∃ e ∈ entries, GivesSheet e.1 s := by
  rw [hnames.mem_iff, List.mem_filterMap]
  constructor
  · rintro ⟨e, he, hs⟩
    exact ⟨e, he, (Workbook.sheetOfEntry?_eq_some_iff (h.names e he).1).mp hs⟩
  · rintro ⟨e, he, hs⟩
    exact ⟨e, he, (Workbook.sheetOfEntry?_eq_some_iff (h.names e he).1).mpr hs⟩

/-- A file whose ending is in small letters is found under the name of its sheet. -/
theorem read?_of_entry (h : IsFolder tree path entries) {s : String} {content : Content}
    (hentry : (s ++ ".csv", .file content) ∈ entries) :
    tree.read? (Workbook.sheetFile path s) =
      if Path.pathLimit < (Path.join path (s ++ ".csv")).utf8ByteSize then none
      else some content := by
  obtain ⟨hname, husable⟩ := h.names _ hentry
  rw [FileTree.read?, Workbook.sheetFile, FileTree.node?_join_file h.folder hname husable
    (FileTree.child?_of_mem h.distinct hentry)]
  split <;> rfl

/-- Such a file is listed and read. -/
theorem sheet_of_entry (h : IsFolder tree path entries) {s : String} (hs : s ≠ "")
    {content : Content} {records : List (List String)}
    (hentry : (s ++ ".csv", .file content) ∈ entries)
    (hshort : (Path.join path (s ++ ".csv")).utf8ByteSize ≤ Path.pathLimit)
    (hrecords : content.records? = some records) :
    (Workbook.folder path).sheet tree s =
      .ok (Table.ofRows (records.map (·.map Cell.ofText))) := by
  obtain ⟨names, hlisted, -, hperm⟩ := Workbook.sheetNames_folder h.folder
  have hmem : s ∈ names := (h.mem_names_iff hperm s).mpr ⟨_, hentry, givesSheet_csv hs⟩
  have htable : Workbook.table? tree s (.folder path) =
      some (Table.ofRows (records.map (·.map Cell.ofText))) := by
    rw [Workbook.table?, h.read?_of_entry hentry, if_neg (Nat.not_lt.mpr hshort),
      Option.bind_some, hrecords]
    rfl
  rw [Workbook.sheet_of_mem hlisted hmem, htable]

/-- Without an entry whose ending is in small letters there is nothing to be read. -/
theorem table?_of_no_entry (h : IsFolder tree path entries) {s : String}
    {e : String × FileTree Content} (he : e ∈ entries) (hgives : GivesSheet e.1 s)
    (hnone : s ++ ".csv" ∉ entries.map Prod.fst) :
    Workbook.table? tree s (.folder path) = none := by
  show ((tree.read? (Path.join path (s ++ ".csv"))).bind Content.records?).map _ = _
  rw [FileTree.read?, FileTree.node?_join_eq_none h.folder (hgives.isName (h.names e he).1)
    (FileTree.child?_eq_none hnone)]
  rfl

/-- No name is listed twice exactly when no two entries give the same sheet. -/
theorem nodup_names_iff (h : IsFolder tree path entries) {names : List String}
    (hnames : names.Perm (entries.filterMap fun e => Workbook.sheetOfEntry? e.1)) :
    names.Nodup ↔ ∀ e ∈ entries, ∀ e' ∈ entries, ∀ s,
      GivesSheet e.1 s → GivesSheet e'.1 s → e = e' := by
  rw [hnames.nodup_iff, List.Nodup, List.pairwise_filterMap]
  constructor
  · intro hpair e he e' he' s hs hs'
    by_contra hne
    -- different entries give different sheets, whichever of them comes first
    have hsymm : Std.Symm fun e e' : String × FileTree Content =>
        ∀ s, Workbook.sheetOfEntry? e.1 = some s →
          ∀ s', Workbook.sheetOfEntry? e'.1 = some s' → s ≠ s' :=
      ⟨fun _ _ hdiffer s hs s' hs' heq => hdiffer s' hs' s hs heq.symm⟩
    exact hpair.forall he he' hne s ((Workbook.sheetOfEntry?_eq_some_iff (h.names e he).1).mpr hs)
      s ((Workbook.sheetOfEntry?_eq_some_iff (h.names e' he').1).mpr hs') rfl
  · intro hsame
    -- no entry comes twice, so a sheet that is listed twice is given by two entries
    have hdistinct : entries.Nodup := h.distinct.of_map
    refine hdistinct.imp_of_mem fun {e e'} he he' hne s hs s' hs' heq => hne ?_
    rw [Workbook.sheetOfEntry?_eq_some_iff (h.names e he).1] at hs
    rw [Workbook.sheetOfEntry?_eq_some_iff (h.names e' he').1] at hs'
    exact hsame e he e' he' s hs (heq ▸ hs')

end IsFolder

/-! ## §2 Listing and reading -/

/-- The sheet is read, and what is read is the table in the given entry. -/
def ReadsEntry (tree : Files) (path : String) (e : String × FileTree Content) (s : String) : Prop :=
  ∃ records, e.2.records? = some records ∧
    (Workbook.folder path).sheet tree s = .ok (Table.ofRows (records.map (·.map Cell.ofText)))

namespace Workbook

/-- **Sheets of a folder**: the names are listed in order, they are those that the endings of the
entries give, and the others are missing. Each is listed once and read from the entry that gives it
exactly when all those entries have their ending in small letters and no path is too long. -/
theorem folder_sheets {tree : Files} {path : String} {entries : List (String × FileTree Content)}
    (h : IsSheetFolder tree path entries) :
    Workbook.ofPath tree path = .ok (.folder path) ∧
    ∃ names, (folder path).sheetNames tree = .ok names ∧
      names.Pairwise (fun a b => a ≤ b) ∧
      (∀ s, s ∈ names ↔ ∃ e ∈ entries, GivesSheet e.1 s) ∧
      (∀ s, (∃ missing available,
        (folder path).sheet tree s = .error (.missingSheet missing available)) ↔ s ∉ names) ∧
      ((names.Nodup ∧ ∀ e ∈ entries, ∀ s, GivesSheet e.1 s → ReadsEntry tree path e s) ↔
        ∀ e ∈ entries, ∀ s, GivesSheet e.1 s →
          e.1 = s ++ ".csv" ∧ (Path.join path e.1).utf8ByteSize ≤ Path.pathLimit) := by
  obtain ⟨names, hlisted, hsorted, hperm⟩ := sheetNames_folder h.folder
  have hmem := h.mem_names_iff hperm
  refine ⟨h.opened, names, hlisted, hsorted, hmem, sheet_eq_missing_iff hlisted, ?_⟩
  rw [h.nodup_names_iff hperm]
  constructor
  · rintro ⟨hone, hreads⟩ e he s hgives
    have hsheet := sheet_of_mem hlisted ((hmem s).mpr ⟨e, he, hgives⟩)
    obtain ⟨records, -, hok⟩ := hreads e he s hgives
    rw [hok] at hsheet
    -- what has been read is the entry with the ending in small letters, so there is one
    by_cases hentry : s ++ ".csv" ∈ entries.map Prod.fst
    · obtain ⟨⟨name, node⟩, he', rfl⟩ := List.mem_map.mp hentry
      obtain rfl := hone e he _ he' s hgives (givesSheet_csv hgives.ne_empty)
      obtain ⟨records, hrecords⟩ := h.files _ he s hgives
      obtain ⟨content, rfl, -⟩ := exists_content_of_records? hrecords
      refine ⟨rfl, ?_⟩
      by_contra hlong
      rw [table?, h.read?_of_entry he, if_pos (by simpa using hlong)] at hsheet
      cases hsheet
    · rw [h.table?_of_no_entry he hgives hentry] at hsheet
      cases hsheet
  · intro hsmall
    refine ⟨fun e he e' he' s hs hs' => ?_, fun e he s hgives => ?_⟩
    · -- two entries that give one sheet have one name
      have hname : e.1 = e'.1 := (hsmall e he s hs).1.trans (hsmall e' he' s hs').1.symm
      exact List.inj_on_of_nodup_map h.distinct he he' hname
    · obtain ⟨hname, hshort⟩ := hsmall e he s hgives
      obtain ⟨records, hrecords⟩ := h.files e he s hgives
      obtain ⟨name, node⟩ := e
      dsimp only at hname hshort hrecords
      subst hname
      obtain ⟨content, rfl, hcontent⟩ := exists_content_of_records? hrecords
      exact ⟨records, hrecords, h.sheet_of_entry hgives.ne_empty he hshort hcontent⟩

/-- The top of a tree with two sheets and some notes in it. -/
def twoSheets : List (String × FileTree Content) :=
  [("b.csv", .file (.text "x,y\n")), ("a.v2.csv", .file (.text "")),
    ("notes.txt", .file (.text "n"))]

/-- At the top of a tree no link stands on the way. -/
theorem isFolder_top {entries : List (String × FileTree Content)}
    (names : ∀ e ∈ entries, Path.IsName e.1 ∧ Path.isUsable e.1 = true)
    (distinct : (entries.map Prod.fst).Nodup) :
    IsFolder (.folder entries) "/" entries := by
  refine ⟨?_, names, distinct⟩
  have hway : Path.steps? "/" = some ["."] := by decide
  have hstart : FileTree.startOf "/" = [] := by decide
  simp [FileTree.node?, FileTree.placeOf, hway, hstart, FileTree.resolve, FileTree.at?]

theorem folder_sheets_two :
    IsSheetFolder (.folder twoSheets) "/" twoSheets ∧
    ∃ names, (folder "/").sheetNames (.folder twoSheets) = .ok names ∧ names.Nodup ∧
      ∀ e ∈ twoSheets, ∀ s, GivesSheet e.1 s → ReadsEntry (.folder twoSheets) "/" e s := by
  have hfolder : IsSheetFolder (.folder twoSheets) "/" twoSheets := by
    refine ⟨isFolder_top (by decide) (by decide), ?_⟩
    simp only [twoSheets, List.forall_mem_cons]
    exact ⟨fun _ _ => ⟨_, rfl⟩, fun _ _ => ⟨_, rfl⟩, fun _ _ => ⟨_, rfl⟩, by simp⟩
  -- the ending of each entry decides what it gives
  have hsmall : ∀ e ∈ twoSheets, ∀ s, GivesSheet e.1 s →
      e.1 = s ++ ".csv" ∧ (Path.join "/" e.1).utf8ByteSize ≤ Path.pathLimit := by
    have hgiven : ∀ e ∈ twoSheets, ∀ s, GivesSheet e.1 s → sheetOfEntry? e.1 = some s :=
      fun e he s h => (sheetOfEntry?_eq_some_iff (hfolder.names e he).1).mpr h
    have hall : ∀ e ∈ twoSheets, ∀ s ∈ sheetOfEntry? e.1,
        e.1 = s ++ ".csv" ∧ (Path.join "/" e.1).utf8ByteSize ≤ Path.pathLimit := by
      decide
    exact fun e he s h => hall e he s (hgiven e he s h)
  obtain ⟨-, names, hlisted, -, -, -, hread⟩ := folder_sheets hfolder
  exact ⟨hfolder, names, hlisted, hread.mpr hsmall⟩

/-- The top of a tree with a sheet whose ending is in capitals. -/
def capitalEnding : List (String × FileTree Content) :=
  [("A.CSV", .file (.text "metakey,values\n"))]

/-- A sheet whose entry has its ending in capitals is listed but cannot be read. -/
theorem capital_ending_unreadable :
    IsSheetFolder (.folder capitalEnding) "/" capitalEnding ∧
    (folder "/").sheetNames (.folder capitalEnding) = .ok ["A"] ∧
    (folder "/").sheet (.folder capitalEnding) "A" = .error .workbook := by
  have hfolder : IsSheetFolder (.folder capitalEnding) "/" capitalEnding := by
    refine ⟨isFolder_top (by decide) (by decide), ?_⟩
    simp only [capitalEnding, List.forall_mem_cons]
    exact ⟨fun _ _ => ⟨_, rfl⟩, by simp⟩
  have hlisted : (folder "/").sheetNames (.folder capitalEnding) = .ok ["A"] := by
    obtain ⟨names, hlisted, -, hperm⟩ := sheetNames_folder hfolder.folder
    have hone : capitalEnding.filterMap (fun e => sheetOfEntry? e.1) = ["A"] := by decide
    rw [hone, List.perm_singleton] at hperm
    rw [hlisted, hperm]
  have hgives : GivesSheet "A.CSV" "A" := ⟨"CSV", by decide, by decide, by decide, by decide⟩
  refine ⟨hfolder, hlisted, ?_⟩
  rw [sheet_of_mem hlisted (by simp),
    hfolder.table?_of_no_entry List.mem_cons_self hgives (by decide)]

end Workbook

end MetadataCatalog
