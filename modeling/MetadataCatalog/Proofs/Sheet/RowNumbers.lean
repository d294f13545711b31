import MetadataCatalog.Proofs.Outcomes
import MetadataCatalog.Proofs.Schema.Obstacles
import MetadataCatalog.Proofs.Sheet.Folders
import MetadataCatalog.Proofs.Sheet.Grids
import MetadataCatalog.Proofs.Sheet.Lines

/-!
# Row numbers

Where the rows of a table stand in their sheet. `Workbook.shownRows?` are the rows of a sheet as a
spreadsheet application shows them, the blank ones among them. A table counts its rows from its
header, so its numbers are those of the shown rows as far as no blank line was passed over on the
way (`Workbook.rows_numbered`).
-/

namespace MetadataCatalog

/-! ## §1 Shown rows -/

namespace Workbook

/-- The rows of a sheet as they are shown, from the first row of the sheet on. Each has the cells
that its row or line has; a row without cells is a blank line. -/
def shownRows? (tree : Files) (name : String) : Workbook → Option (List (List Cell))
  | .spreadsheet _ _ sheets =>
    (sheets.find? (·.1 = name)).bind fun (_, grid) => grid.used?.map Grid.shownRows
  | .folder path =>
    ((tree.read? (sheetFile path name)).bind Content.lines?).map (·.map (·.map Cell.ofText))

/-- How many of the shown rows above row `p`, which counts from zero, are blank lines. -/
def blankLinesAbove (shown : List (List Cell)) (p : Nat) : Nat :=
  (shown.take p).count []

theorem blankLinesAbove_of_not_mem {shown : List (List Cell)} (h : [] ∉ shown) (p : Nat) :
    blankLinesAbove shown p = 0 :=
  List.count_eq_zero.mpr fun hmem => h (List.mem_of_mem_take hmem)

/-- A row with cells comes as far down among its like as it comes down at all, less the blank lines
above it. -/
theorem exists_of_getElem?_filter {shown : List (List Cell)} {m : Nat} {cells : List Cell}
    (h : (shown.filter (· ≠ []))[m]? = some cells) :
    ∃ p, shown[p]? = some cells ∧ cells ≠ [] ∧ m + blankLinesAbove shown p = p := by
  -- a blank line on top adds one to `p` and to the count, any other row one to `p` and to `m`
  induction shown generalizing m with
  | nil => simp at h
  | cons row rest ih =>
    by_cases hrow : row = []
    · rw [List.filter_cons_of_neg (by simpa using hrow)] at h
      obtain ⟨p, hp, hne, hcount⟩ := ih h
      refine ⟨p + 1, hp, hne, ?_⟩
      simp only [blankLinesAbove, List.take_succ_cons, hrow, List.count_cons_self] at hcount ⊢
      omega
    · rw [List.filter_cons_of_pos (by simpa using hrow)] at h
      cases m with
      | zero =>
        cases h
        exact ⟨0, rfl, hrow, rfl⟩
      | succ m =>
        obtain ⟨p, hp, hne, hcount⟩ := ih h
        refine ⟨p + 1, hp, hne, ?_⟩
        simp only [blankLinesAbove, List.take_succ_cons, List.count_cons_of_ne hrow]
          at hcount ⊢
        omega

/-- No more blank lines are passed over than rows. -/
theorem blankLinesAbove_le (shown : List (List Cell)) {p q : Nat} (h : p ≤ q) :
    blankLinesAbove shown q ≤ blankLinesAbove shown p + (q - p) := by
  obtain ⟨k, rfl⟩ := Nat.exists_eq_add_of_le h
  have hcount : ((shown.drop p).take k).count [] ≤ k :=
    Nat.le_trans List.count_le_length (List.length_take_le k _)
  simp only [blankLinesAbove, List.take_add, List.count_append]
  omega

/-! ## §2 Numbers -/

/-- Data row `i` of a table shows row `p` of its sheet, and its number leaves out the blank lines
above. -/
def ShowsAt (t : Table) (shown : List (List Cell)) (i p : Nat) : Prop :=
  ∃ cells, shown[p]? = some cells ∧ cells ≠ [] ∧
    t.rows[i]? = some (Table.padded t.width cells) ∧
    t.sheetRow i + blankLinesAbove shown p = p + 1

/-- Where raw rows are numbered so, the data rows of their table are. -/
theorem exists_showsAt {raw shown : List (List Cell)} {headerRow : Nat} (hheader : 1 ≤ headerRow)
    (h : ∀ m cells, raw[m]? = some cells → ∃ p, shown[p]? = some cells ∧ cells ≠ [] ∧
      headerRow + m + blankLinesAbove shown p = p + 1)
    {i : Nat} (hi : i < (Table.ofRowsAt raw headerRow).rows.length) :
    ∃ p, ShowsAt (Table.ofRowsAt raw headerRow) shown i p := by
  obtain ⟨cells, hcells, hrow⟩ := Table.exists_raw_of_row hi
  obtain ⟨p, hp, hne, hcount⟩ := h (i + 1) cells hcells
  refine ⟨p, cells, hp, hne, hrow, ?_⟩
  have hsheet : (Table.ofRowsAt raw headerRow).sheetRow i = headerRow + 1 + i := by
    show max headerRow 1 + 1 + i = headerRow + 1 + i
    rw [Nat.max_eq_left hheader]
  omega

/-- The table of a sheet shows the rows of the sheet; those of a spreadsheet all have cells. -/
theorem exists_shown_of_table? {tree : Files} {w : Workbook} {name : String} {t : Table}
    (h : w.table? tree name = some t) :
    ∃ shown, w.shownRows? tree name = some shown ∧
      (∀ path place sheets, w = .spreadsheet path place sheets → [] ∉ shown) ∧
      ∀ i < t.rows.length, ∃ p, ShowsAt t shown i p := by
  cases w with
  | spreadsheet path place sheets =>
    simp only [table?, Option.ite_none_right_eq_some, Option.bind_eq_some_iff, Grid.table?,
      Option.map_eq_some_iff] at h
    obtain ⟨-, ⟨name', grid⟩, hfind, cells, hused, rfl⟩ := h
    have hblank : [] ∉ Grid.shownRows cells := fun hmem => Grid.ne_nil_of_mem_shownRows hmem rfl
    refine ⟨Grid.shownRows cells, by simp [shownRows?, hfind, hused], fun _ _ _ _ => hblank, ?_⟩
    rw [Grid.tableOf_eq]
    intro i hi
    -- the rows above the first used one are counted by the header row
    refine exists_showsAt (Nat.le_add_left 1 _) (fun m row hrow => ?_) hi
    rw [List.getElem?_drop] at hrow
    refine ⟨Grid.topRow cells + m, hrow, ?_, ?_⟩
    · rintro rfl
      exact hblank (List.mem_of_getElem? hrow)
    · rw [blankLinesAbove_of_not_mem hblank]
      omega
  | folder path =>
    simp only [table?, Option.map_eq_some_iff, Option.bind_eq_some_iff,
      Content.records?_eq_filter_lines] at h
    obtain ⟨-, ⟨content, hread, lines, hlines, rfl⟩, rfl⟩ := h
    refine ⟨lines.map (·.map Cell.ofText), by simp [shownRows?, hread, hlines],
      fun _ _ _ heq => Workbook.noConfusion heq, ?_⟩
    rw [Csv.filter_ne_nil_map]
    intro i hi
    refine exists_showsAt (Nat.le_refl 1) (fun m row hrow => ?_) hi
    obtain ⟨p, hp, hne, hcount⟩ := exists_of_getElem?_filter hrow
    exact ⟨p, hp, hne, by omega⟩

/-- Of two data rows the lower one shows the lower row. -/
theorem ShowsAt.lt {t : Table} {shown : List (List Cell)} {i j p q : Nat} (h : ShowsAt t shown i p)
    (h' : ShowsAt t shown j q) (hlt : j < i) : q < p := by
  obtain ⟨-, -, -, -, hp⟩ := h
  obtain ⟨-, -, -, -, hq⟩ := h'
  by_contra hle
  -- there would be more blank lines between the two rows than rows
  have := blankLinesAbove_le shown (Nat.le_of_not_lt hle)
  rw [Table.sheetRow] at hp hq
  omega

/-- The key of a data row stands in the row that it shows. -/
theorem ShowsAt.exists_key {t : Table} {shown : List (List Cell)} {i p column : Nat} {key : String}
    (h : ShowsAt t shown i p) (hcolumn : column < t.width)
    (hkey : CleanSheet.keyAt t column i = some key) :
    ∃ cells, shown[p]? = some cells ∧ cellAt cells column = some key := by
  obtain ⟨cells, hcells, -, hrow, -⟩ := h
  refine ⟨cells, hcells, ?_⟩
  rwa [CleanSheet.keyAt, hrow, Option.bind_some, Table.cellAt_padded hcolumn] at hkey

/-- A sheet is read, or there is no sheet, or it cannot be listed or read. -/
theorem sheet_outcome (tree : Files) (w : Workbook) (name : String) :
    (∃ t, w.table? tree name = some t ∧ w.sheet tree name = .ok t) ∨
      ∃ fault, w.sheet tree name = .error fault ∧ fault.row? = none := by
  cases hnames : w.sheetNames tree with
  | error fault =>
    refine Or.inr ⟨fault, by simp [sheet, hnames, bind, Except.bind], ?_⟩
    -- only a folder can fail to list its sheets
    cases w with
    | spreadsheet path place sheets => cases hnames
    | folder path =>
      simp only [sheetNames] at hnames
      split at hnames
      · cases hnames
        rfl
      · cases hnames
  | ok names =>
    by_cases hmem : name ∈ names
    · rw [sheet_of_mem hnames hmem]
      cases w.table? tree name with
      | none => exact Or.inr ⟨_, rfl, rfl⟩
      | some t => exact Or.inl ⟨t, rfl, rfl⟩
    · obtain ⟨missing, available, herror⟩ := (sheet_eq_missing_iff hnames name).mpr hmem
      exact Or.inr ⟨_, herror, rfl⟩

theorem table?_of_sheet {tree : Files} {w : Workbook} {name : String} {t : Table}
    (h : w.sheet tree name = .ok t) : w.table? tree name = some t := by
  rcases sheet_outcome tree w name with ⟨t', htable, hok⟩ | ⟨fault, herror, -⟩
  · rw [h] at hok
    cases hok
    exact htable
  · rw [h] at herror
    cases herror

theorem dictionary_of_sheet {tree : Files} {w : Workbook} {t : Table}
    (h : w.sheet tree Dictionary.sheetName = .ok t) :
    w.dictionary tree = .ok (Dictionary.ofTable t) := by
  rw [dictionary, h]
  rfl

theorem descriptors_of_sheet {tree : Files} {w : Workbook} {site : String} {t : Table}
    (h : w.sheet tree (Schema.sheetName site) = .ok t) :
    w.descriptors tree site = w.dictionary tree >>= Schema.descriptors t := by
  unfold descriptors schemaSheet
  rw [h]
  cases w.dictionary tree <;> rfl

/-- A fault that names a row comes from the table of the site, once it and the dictionary have been
read. -/
theorem exists_table_of_row {tree : Files} {w : Workbook} {site : String} {row : Nat}
    {why : RowDefect} (h : w.descriptors tree site = .error (.malformedRow row why)) :
    ∃ t d, w.sheet tree (Schema.sheetName site) = .ok t ∧ w.dictionary tree = .ok d ∧
      Schema.descriptors t d = .error (.malformedRow row why) := by
  -- what goes wrong before the table is cleaned names no row
  rcases sheet_outcome tree w (Schema.sheetName site) with ⟨t, -, hsheet⟩ | ⟨fault, hsheet, hrow⟩
  · rw [descriptors_of_sheet hsheet] at h
    rcases sheet_outcome tree w Dictionary.sheetName with ⟨t', -, hdict⟩ | ⟨fault, hdict, hrow⟩
    · have hdictionary := dictionary_of_sheet hdict
      rw [hdictionary] at h
      exact ⟨t, _, hsheet, hdictionary, h⟩
    · rw [dictionary, hdict] at h
      cases h
      cases hrow
  · unfold descriptors schemaSheet at h
    rw [hsheet] at h
    cases h
    cases hrow

/-- A column is that of the keys when it is the leftmost one under the header that the dictionary
gives for them. -/
def IsKeyColumn (t : Table) (d : Dictionary) (column : Nat) : Prop :=
  ∃ entry, d.Holds Dictionary.keyRow entry ∧ LeftmostAt t.headers entry.column column

theorem IsKeyColumn.lt_width {t : Table} {d : Dictionary} {column : Nat}
    (h : IsKeyColumn t d column) : column < t.width := by
  obtain ⟨entry, -, hcolumn⟩ := h
  exact (List.getElem?_eq_some_iff.mp hcolumn.1).1

theorem exists_of_repeated_key {t : Table} {d : Dictionary} {row : Nat} {key : String}
    (h : Schema.descriptors t d = .error (.malformedRow row (.duplicateKey key))) :
    ∃ column i, IsKeyColumn t d column ∧ CleanSheet.RepeatsKey t column i ∧
      CleanSheet.keyAt t column i = some key ∧ row = t.sheetRow i := by
  rcases Schema.descriptors_outcome t d with ⟨n, f, herror, hfirst⟩ | ⟨⟨document, hok⟩, -⟩
  · rw [h] at herror
    cases herror
    obtain ⟨hobstacle, -⟩ := hfirst
    cases hobstacle with
    | repeatedKey entry c i text hkey hc hi _ htext => exact ⟨c, i, ⟨entry, hkey, hc⟩, hi, htext, rfl⟩
  · rw [h] at hok
    cases hok

/-- **Row numbers**: every data row of a table shows a row of its sheet, and its number is the place
of that row less the blank lines above it, of which a spreadsheet has none. The row that a repeated
key is reported for is numbered so, the key stands in it, and it stands in a row above it. -/
theorem rows_numbered (tree : Files) (w : Workbook) :
    (∀ name t, w.sheet tree name = .ok t →
      ∃ shown, w.shownRows? tree name = some shown ∧
        (∀ path place sheets, w = .spreadsheet path place sheets → [] ∉ shown) ∧
        ∀ i < t.rows.length, ∃ p, ShowsAt t shown i p) ∧
    ∀ site row key, w.descriptors tree site = .error (.malformedRow row (.duplicateKey key)) →
      ∃ t d shown column p q, w.sheet tree (Schema.sheetName site) = .ok t ∧
        w.dictionary tree = .ok d ∧ IsKeyColumn t d column ∧
        w.shownRows? tree (Schema.sheetName site) = some shown ∧
        row + blankLinesAbove shown p = p + 1 ∧ q < p ∧
        (∃ cells, shown[p]? = some cells ∧ cellAt cells column = some key) ∧
        ∃ cells, shown[q]? = some cells ∧ cellAt cells column = some key := by
  refine ⟨fun name t h => exists_shown_of_table? (table?_of_sheet h), fun site row key h => ?_⟩
  obtain ⟨t, d, hsheet, hdictionary, hrepeated⟩ := exists_table_of_row h
  obtain ⟨shown, hshown, -, hrows⟩ := exists_shown_of_table? (table?_of_sheet hsheet)
  obtain ⟨column, i, hcolumn, ⟨-, j, hlt, -, hsame⟩, hkey, rfl⟩ := exists_of_repeated_key hrepeated
  rw [hkey] at hsame
  -- both rows are there, as their key cells are filled
  have hlength : ∀ {k}, CleanSheet.keyAt t column k = some key → k < t.rows.length := by
    intro k hk
    obtain ⟨cells, hcells, -⟩ := Option.bind_eq_some_iff.mp hk
    exact (List.getElem?_eq_some_iff.mp hcells).1
  obtain ⟨p, hp⟩ := hrows i (hlength hkey)
  obtain ⟨q, hq⟩ := hrows j (hlength hsame)
  have hnumber : t.sheetRow i + blankLinesAbove shown p = p + 1 := by
    obtain ⟨-, -, -, -, hnumber⟩ := hp
    exact hnumber
  exact ⟨t, d, shown, column, p, q, hsheet, hdictionary, hcolumn, hshown, hnumber, hp.lt hq hlt,
    hp.exists_key hcolumn.lt_width hkey, hq.exists_key hcolumn.lt_width hsame⟩

/-- The rows of a dictionary sheet. -/
def siteDictionaryRows : List (List String) :=
  [["ServiceDict", "ExcelDict"], ["key", "metakey"], ["description", "description"],
    ["placeholder", "placeholder"], ["type", "type"], ["required", "required"], ["unit", "unit"],
    ["group", "group"], ["values", "values"]]

/-- A spreadsheet with blank rows above the header and in the middle, in which a key is repeated. -/
def repeatingSheets : List (String × Grid) :=
  [("A_schema", .ofTexts [["", ""], ["metakey", "values"], ["key of the field", "permitted values"],
      ["", ""], ["color", "red"], ["color", "blue"]]),
    ("schema_dicts", .ofTexts siteDictionaryRows)]

theorem rows_numbered_spreadsheet :
    ∃ shown column p q,
      (spreadsheet "/book.xlsx" ["book.xlsx"] repeatingSheets).shownRows? (.folder []) "A_schema" =
        some shown ∧
      [] ∉ shown ∧ 6 = p + 1 ∧ q < p ∧
      (∃ cells, shown[p]? = some cells ∧ cellAt cells column = some "color") ∧
      ∃ cells, shown[q]? = some cells ∧ cellAt cells column = some "color" := by
  have hnumbered := rows_numbered (.folder [])
    (spreadsheet "/book.xlsx" ["book.xlsx"] repeatingSheets)
  have herror : (spreadsheet "/book.xlsx" ["book.xlsx"] repeatingSheets).descriptors (.folder [])
      "A" = .error (.malformedRow 6 (.duplicateKey "color")) := rfl
  obtain ⟨t, d, shown, column, p, q, hsheet, -, -, hshown, hp, hlt, hcells⟩ :=
    hnumbered.2 "A" 6 "color" herror
  obtain ⟨shown', hshown', hblank, -⟩ := hnumbered.1 _ t hsheet
  rw [hshown] at hshown'
  cases hshown'
  have hnone := hblank _ _ _ rfl
  rw [blankLinesAbove_of_not_mem hnone] at hp
  exact ⟨shown, column, p, q, hshown, hnone, hp, hlt, hcells⟩

/-- The rows of a dictionary sheet as a text. -/
def siteDictionaryText : String :=
  "ServiceDict,ExcelDict\nkey,metakey\ndescription,description\nplaceholder,placeholder\n" ++
    "type,type\nrequired,required\nunit,unit\ngroup,group\nvalues,values\n"

theorem ofText_siteDictionaryText : Csv.ofText siteDictionaryText = siteDictionaryRows := by
  decide +kernel

/-- A sheet in which a key is repeated below a blank line. -/
def repeatingText : String :=
  "metakey,values\nkey of the field,permitted values\n\ncolor,red\ncolor,blue\n"

/-- A folder with that sheet and a dictionary. -/
def repeatingEntries : List (String × FileTree Content) :=
  [("A_schema.csv", .file (.text repeatingText)),
    ("schema_dicts.csv", .file (.text siteDictionaryText))]

/-- A blank line is shown but not counted: the key is repeated on row 5, and row 4 is reported, which
is where it stands first. -/
theorem blank_line_not_counted :
    (folder "/").descriptors (.folder repeatingEntries) "A" =
        .error (.malformedRow 4 (.duplicateKey "color")) ∧
      (folder "/").shownRows? (.folder repeatingEntries) "A_schema" =
        some [[some "metakey", some "values"],
          [some "key of the field", some "permitted values"],
          [],
          [some "color", some "red"],
          [some "color", some "blue"]] := by
  have hfolder : IsFolder (.folder repeatingEntries) "/" repeatingEntries :=
    isFolder_top (by decide) (by decide)
  have hschema : ("A_schema" ++ ".csv", .file (.text repeatingText)) ∈ repeatingEntries :=
    List.mem_cons_self
  have hdict : (Dictionary.sheetName ++ ".csv", .file (.text siteDictionaryText)) ∈
      repeatingEntries := List.mem_cons_of_mem _ List.mem_cons_self
  have hlines : Csv.linesOfText repeatingText =
      [["metakey", "values"], ["key of the field", "permitted values"], [], ["color", "red"],
        ["color", "blue"]] := by
    decide +kernel
  have hsheet := hfolder.sheet_of_entry (by decide) hschema (by decide) rfl
  have hdictionary := dictionary_of_sheet
    (hfolder.sheet_of_entry (by decide) hdict (by decide) rfl)
  constructor
  · rw [descriptors_of_sheet hsheet, hdictionary, ofText_siteDictionaryText,
      Csv.ofText_eq_filter_lines, hlines]
    rfl
  · rw [shownRows?, hfolder.read?_of_entry hschema, if_neg (by decide)]
    show some ((Csv.linesOfText repeatingText).map _) = _
    rw [hlines]
    rfl

end Workbook

end MetadataCatalog
