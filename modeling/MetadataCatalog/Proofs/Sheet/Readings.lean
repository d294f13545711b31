import MetadataCatalog.Proofs.Sheet.Rectangles
import MetadataCatalog.Proofs.Sheet.RowNumbers
import MetadataCatalog.Proofs.Sheet.Writing

/-!
# One sheet in two forms

The same rows of texts as a sheet of a spreadsheet and as a file in a folder. A spreadsheet is read
from the first to the last used cell, a file as it lies. So both lead to the same schema document,
or to the same fault, when the first row is used and the dictionary does not ask for a column of the
empty right edge, which only the file has (`Workbook.same_schema_in_both_forms`). A file that begins
with a blank row has that row for its header.
-/

namespace MetadataCatalog

namespace Workbook

/-! ## §1 The two forms -/

/-- The workbook is a spreadsheet, not overwritten, whose sheet of the given name holds the texts of
the rows. -/
inductive InSpreadsheet (tree : Files) (name : String) (rows : List (List String)) :
    Workbook → Prop where
  | mk {path : String} {place : List String} {sheets : List (String × Grid)} {found : String}
      {g : Grid} (hplace : tree.at? place = some (.file (.spreadsheet sheets)))
      (hfound : sheets.find? (·.1 = name) = some (found, g)) (hholds : g.Holds rows) :
      InSpreadsheet tree name rows (.spreadsheet path place sheets)

/-- The workbook is a folder, in which the file of the given name writes the rows. -/
inductive InFolder (tree : Files) (name : String) (rows : List (List String)) :
    Workbook → Prop where
  | mk {path : String} {entries : List (String × FileTree Content)} {s : String}
      (hfolder : IsFolder tree path entries)
      (hentry : (name ++ ".csv", .file (.text s)) ∈ entries)
      (hshort : (Path.join path (name ++ ".csv")).utf8ByteSize ≤ Path.pathLimit)
      (hwrites : Csv.TextWrites rows s) :
      InFolder tree name rows (.folder path)

section Forms

variable {tree : Files} {name : String} {rows : List (List String)} {w : Workbook}

theorem InSpreadsheet.exists_sheet (h : InSpreadsheet tree name rows w) :
    ∃ g : Grid, g.Holds rows ∧ ∀ t, g.table? = some t → w.sheet tree name = .ok t := by
  obtain @⟨path, place, sheets, found, g, hplace, hfound, hholds⟩ := h
  refine ⟨g, hholds, fun t ht => ?_⟩
  have hmem : name ∈ sheets.map Prod.fst := by
    have hname : found = name := by simpa using List.find?_some hfound
    exact List.mem_map.mpr ⟨_, List.mem_of_find?_eq_some hfound, hname⟩
  have htable : (spreadsheet path place sheets).table? tree name = some t := by
    simp [table?, isIntact, hplace, hfound, ht]
  have hlisted : (spreadsheet path place sheets).sheetNames tree = .ok (sheets.map Prod.fst) := rfl
  rw [sheet_of_mem hlisted hmem, htable]

theorem InFolder.sheet_eq (h : InFolder tree name rows w) (hname : name ≠ "")
    (hne : ∀ row ∈ rows, row ≠ []) :
    w.sheet tree name = .ok (Table.ofRows (rows.map (·.map Cell.ofText))) := by
  obtain ⟨hfolder, hentry, hshort, hwrites⟩ := h
  rw [hfolder.sheet_of_entry hname hentry hshort rfl,
    Csv.ofText_of_textWrites hwrites hne]

end Forms

/-! ## §2 The same schema -/

/-- Column `j` and those right of it hold no text. -/
def IsMargin (rows : List (List String)) (j : Nat) : Prop :=
  ∀ i k, j ≤ k → textAt rows i k = ""

/-- The dictionary asks for neither the keys nor the values under a header that is generated for an
empty column at the right edge. -/
def AvoidsMargin (d : Dictionary) (rows : List (List String)) (width : Nat) : Prop :=
  ∀ index, index = Dictionary.keyRow ∨ index = Dictionary.valuesRow →
    ∀ e, d.Holds index e → ∀ j < width, IsMargin rows j → e.column ≠ Table.generatedHeader j

theorem row_ne_nil {rows : List (List String)} {width : Nat}
    (hrect : ∀ row ∈ rows, row.length = width) (hwidth : 2 ≤ width) : ∀ row ∈ rows, row ≠ [] := by
  intro row hrow hnil
  have hlength := hrect row hrow
  rw [hnil, List.length_nil] at hlength
  omega

/-- Where the first row is used, a file gives the table of the spreadsheet, widened by the columns of
the empty right edge. -/
theorem exists_sheets {tree tree' : Files} {book directory : Workbook} {name : String}
    {rows : List (List String)} {width : Nat} (hbook : InSpreadsheet tree name rows book)
    (hdirectory : InFolder tree' name rows directory) (hname : name ≠ "")
    (hrect : ∀ row ∈ rows, row.length = width) (hwidth : 2 ≤ width)
    (hfirst : ∃ j, textAt rows 0 j ≠ "") :
    ∃ t used, book.sheet tree name = .ok t ∧ (∀ row ∈ t.rows, row.length = t.width) ∧
      IsMargin rows used ∧
      directory.sheet tree' name =
        .ok (t.widened ((List.range' used (width - used)).map Table.generatedHeader)) := by
  obtain ⟨g, hholds, hsheet⟩ := hbook.exists_sheet
  obtain ⟨t, used, htable, hrows, hmargin, hwidened⟩ := hholds.exists_table hrect hfirst
  refine ⟨t, used, hsheet t htable, hrows, hmargin, ?_⟩
  rw [hdirectory.sheet_eq hname (row_ne_nil hrect hwidth), hwidened]

/-- A dictionary sheet whose first row is used gives the same dictionary in both forms. -/
theorem dictionary_same_in_both_forms {tree tree' : Files} {book directory : Workbook}
    {rows : List (List String)} {width : Nat}
    (hbook : InSpreadsheet tree Dictionary.sheetName rows book)
    (hdirectory : InFolder tree' Dictionary.sheetName rows directory)
    (hrect : ∀ row ∈ rows, row.length = width) (hwidth : 2 ≤ width)
    (hfirst : ∃ j, textAt rows 0 j ≠ "") :
    book.dictionary tree = directory.dictionary tree' := by
  obtain ⟨t, used, hsheet, -, -, hsheet'⟩ :=
    exists_sheets hbook hdirectory (by decide) hrect hwidth hfirst
  rw [dictionary_of_sheet hsheet, dictionary_of_sheet hsheet', Dictionary.ofTable_widened]

/-- A table whose header row is empty has generated headers only. -/
theorem refused_of_blank_header {t : Table} {d : Dictionary} {key : MappingEntry}
    (hheaders : ∀ header ∈ t.headers, ∃ j, header = Table.generatedHeader j)
    (hkey : d.Holds Dictionary.keyRow key) (hnot : ∀ j, key.column ≠ Table.generatedHeader j) :
    ∃ why, Schema.descriptors t d = .error (.refused why) := by
  have hmem : key.column ∉ t.headers := by
    intro hmem
    obtain ⟨j, hj⟩ := hheaders _ hmem
    exact hnot j hj
  exact ⟨_, Schema.descriptors_of_ofTable_error (CleanSheet.ofTable_of_not_mem hkey hmem)⟩

/-- **Both forms**: rows of one length, of at least two columns and with some text in them, stand in
a spreadsheet and in a folder, and the dictionary is the same or is missing in the same way. If the
first row is used, both give the same schema document, or faults of one kind that name the same row,
unless the dictionary asks for a column of the empty right edge. If it is not, the file of the
folder is refused: its blank row is taken for the header. -/
theorem same_schema_in_both_forms {tree tree' : Files} {book directory : Workbook} {site : String}
    {rows : List (List String)} {width : Nat}
    (hbook : InSpreadsheet tree (Schema.sheetName site) rows book)
    (hdirectory : InFolder tree' (Schema.sheetName site) rows directory)
    (hrect : ∀ row ∈ rows, row.length = width) (hwidth : 2 ≤ width)
    (hused : ∃ i j, textAt rows i j ≠ "")
    (hdictionary : outline (book.dictionary tree) = outline (directory.dictionary tree')) :
    ((∃ j, textAt rows 0 j ≠ "") →
      (∀ d, book.dictionary tree = .ok d → AvoidsMargin d rows width) →
      outline (book.descriptors tree site) = outline (directory.descriptors tree' site)) ∧
    ((∀ j, textAt rows 0 j = "") → ∀ d key, directory.dictionary tree' = .ok d →
      d.Holds Dictionary.keyRow key → (∀ j, key.column ≠ Table.generatedHeader j) →
      ∃ why, directory.descriptors tree' site = .error (.refused why)) := by
  have hname : Schema.sheetName site ≠ "" := by
    simp [Schema.sheetName]
  constructor
  · intro hfirst havoids
    obtain ⟨t, used, hsheet, hrows, hmargin, hsheet'⟩ :=
      exists_sheets hbook hdirectory hname hrect hwidth hfirst
    rw [descriptors_of_sheet hsheet, descriptors_of_sheet hsheet']
    -- either both dictionaries are missing in the same way, or they are the same
    cases hd : book.dictionary tree with
    | error fault =>
      rw [hd] at hdictionary
      cases hd' : directory.dictionary tree' with
      | error fault' =>
        rw [hd'] at hdictionary
        exact congrArg Except.error (Except.error.inj hdictionary)
      | ok d =>
        rw [hd'] at hdictionary
        cases hdictionary
    | ok d =>
      rw [hd] at hdictionary
      rw [outline_eq_ok_iff.mp hdictionary.symm]
      refine (Schema.outline_descriptors_widened hrows fun index hindex e he hmem => ?_).symm
      obtain ⟨j, hj, heq⟩ := List.mem_map.mp hmem
      obtain ⟨hle, hlt⟩ := List.mem_range'_1.mp hj
      -- every added column lies in the empty right edge
      have hj : IsMargin rows j := fun i k hk => hmargin i k (Nat.le_trans hle hk)
      exact havoids d hd index hindex e he j (by omega) hj heq.symm
  · intro hblank d key hd hkey hgenerated
    rw [descriptors_of_sheet (hdirectory.sheet_eq hname (row_ne_nil hrect hwidth)), hd]
    -- every header is that of an empty cell of the first row
    refine refused_of_blank_header (fun header hheader => ?_) hkey hgenerated
    obtain ⟨i, j, hij⟩ := hused
    obtain ⟨hi, -⟩ := Grid.lt_length_of_textAt hrect hij
    rw [Table.ofRows, Grid.map_ofText_eq_rectangle hrect,
      Table.ofRowsAt_rectangle_eq _ (by omega)] at hheader
    obtain ⟨k, -, rfl⟩ := List.mem_map.mp hheader
    exact ⟨k, by rw [Grid.cellsOf_eq_none (hblank k)]; rfl⟩

/-! ## §3 A site in both forms -/

/-- The sheets of a spreadsheet with a schema and a dictionary. -/
def siteSheets (rows : List (List String)) : List (String × Grid) :=
  [("A_schema", .ofTexts rows), ("schema_dicts", .ofTexts siteDictionaryRows)]

/-- The same sheets as files. -/
def siteEntries (rows : List (List String)) : List (String × FileTree Content) :=
  [("A_schema.csv", .file (.text (Csv.quotedText rows))),
    ("schema_dicts.csv", .file (.text (Csv.quotedText siteDictionaryRows)))]

/-- The spreadsheet, in a tree of its own. -/
def siteBook (rows : List (List String)) : Workbook :=
  .spreadsheet "/book.xlsx" ["book.xlsx"] (siteSheets rows)

/-- The tree with the spreadsheet. -/
def siteBookTree (rows : List (List String)) : Files :=
  .folder [("book.xlsx", .file (.spreadsheet (siteSheets rows)))]

theorem isFolder_siteEntries (rows : List (List String)) :
    IsFolder (.folder (siteEntries rows)) "/" (siteEntries rows) := by
  refine isFolder_top ?_ ?_
  · simp only [siteEntries, List.forall_mem_cons]
    exact ⟨by decide, by decide, by simp⟩
  · show ["A_schema.csv", "schema_dicts.csv"].Nodup
    decide

theorem inSpreadsheet_site (rows : List (List String)) :
    InSpreadsheet (siteBookTree rows) (Schema.sheetName "A") rows (siteBook rows) ∧
      InSpreadsheet (siteBookTree rows) Dictionary.sheetName siteDictionaryRows (siteBook rows) :=
  ⟨.mk rfl rfl (Grid.holds_ofTexts rows), .mk rfl rfl (Grid.holds_ofTexts siteDictionaryRows)⟩

theorem inFolder_site (rows : List (List String)) :
    InFolder (.folder (siteEntries rows)) (Schema.sheetName "A") rows (.folder "/") ∧
      InFolder (.folder (siteEntries rows)) Dictionary.sheetName siteDictionaryRows
        (.folder "/") :=
  ⟨.mk (isFolder_siteEntries rows) List.mem_cons_self (by decide)
      (Csv.textWrites_quotedText rows),
    .mk (isFolder_siteEntries rows) (List.mem_cons_of_mem _ List.mem_cons_self) (by decide)
      (Csv.textWrites_quotedText siteDictionaryRows)⟩

theorem dictionary_site (rows : List (List String)) :
    (siteBook rows).dictionary (siteBookTree rows) =
      (folder "/").dictionary (.folder (siteEntries rows)) :=
  dictionary_same_in_both_forms (inSpreadsheet_site rows).2 (inFolder_site rows).2 (by decide)
    (Nat.le_refl 2) ⟨0, by decide⟩

/-- A schema with a blank row in the middle and an empty column at the right edge. -/
def marginRows : List (List String) :=
  [["metakey", "values", ""], ["key of the field", "permitted values", ""], ["", "", ""],
    ["color", "red", ""], ["size", "", ""], ["", "", ""]]

theorem same_schema_in_both_forms_site :
    outline ((siteBook marginRows).descriptors (siteBookTree marginRows) "A") =
      outline ((folder "/").descriptors (.folder (siteEntries marginRows)) "A") := by
  have havoids : ∀ d, (siteBook marginRows).dictionary (siteBookTree marginRows) = .ok d →
      AvoidsMargin d marginRows 3 := by
    have hd : (siteBook marginRows).dictionary (siteBookTree marginRows) =
        .ok (CleanSheet.siteDictionary "values") := rfl
    rw [hd]
    rintro _ ⟨⟩ index (rfl | rfl) ⟨canonical, column⟩ he j hj -
    · cases he
      exact (show ∀ j < 3, "metakey" ≠ Table.generatedHeader j by decide) j hj
    · cases he
      exact (show ∀ j < 3, "values" ≠ Table.generatedHeader j by decide) j hj
  exact (same_schema_in_both_forms (inSpreadsheet_site marginRows).1 (inFolder_site marginRows).1
    (by decide) (by decide) ⟨0, 0, by decide⟩ (congrArg outline (dictionary_site marginRows))).1
    ⟨0, by decide⟩ havoids

/-- A schema below a blank row. -/
def loweredRows : List (List String) :=
  [["", ""], ["metakey", "values"], ["key of the field", "permitted values"], ["color", "red"]]

/-- Below a blank row the schema is read from the spreadsheet, and from the folder it is refused. -/
theorem blank_row_refused :
    InSpreadsheet (siteBookTree loweredRows) (Schema.sheetName "A") loweredRows
        (siteBook loweredRows) ∧
      InFolder (.folder (siteEntries loweredRows)) (Schema.sheetName "A") loweredRows
        (.folder "/") ∧
      (siteBook loweredRows).dictionary (siteBookTree loweredRows) =
        (folder "/").dictionary (.folder (siteEntries loweredRows)) ∧
      (siteBook loweredRows).descriptors (siteBookTree loweredRows) "A" =
        .ok (.list [.object [("key", .text "color"),
          ("values", .list [.text "", .text "red"])]]) ∧
      ∃ why, (folder "/").descriptors (.folder (siteEntries loweredRows)) "A" =
        .error (.refused why) := by
  have hdictionary := dictionary_site loweredRows
  have hsheet := (inFolder_site loweredRows).1.sheet_eq (by decide) (by decide)
  refine ⟨(inSpreadsheet_site loweredRows).1, (inFolder_site loweredRows).1, hdictionary, rfl, ?_⟩
  rw [descriptors_of_sheet hsheet, ← hdictionary]
  exact ⟨_, rfl⟩

end Workbook

end MetadataCatalog
