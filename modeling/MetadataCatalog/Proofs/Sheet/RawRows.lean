import MetadataCatalog.Proofs.Sheet.Rectangles
import Mathlib.Data.List.Forall2

/-!
# Raw rows

What a table keeps of the raw rows that it is made of. `Table.IsMadeOf` tells it column by column and
row by row, without the passes that pad the rows and take blank ones off their end, and just one
table fits (`Table.ofRowsAt_eq_iff_isMadeOf`). So a table that is made again of its own headers and
rows is the same table, and so is one made with empty rows below or with empty cells at the end of
rows, as long as they do not make it wider (`Table.ofRowsAt_laws`).
-/

namespace MetadataCatalog

/-! ## §1 Related lists -/

/-- Related lists have related items at each place. -/
theorem exists_getElem?_of_forall₂ {α β : Type} {R : α → β → Prop} {as : List α} {bs : List β}
    (h : List.Forall₂ R as bs) {i : Nat} {a : α} (ha : as[i]? = some a) :
    ∃ b, bs[i]? = some b ∧ R a b := by
  induction h generalizing i with
  | nil => simp at ha
  | cons hab hrest ih =>
    cases i with
    | zero =>
      cases ha
      exact ⟨_, rfl, hab⟩
    | succ i => exact ih ha

/-- A property that related items share is one of all items on both sides, or on neither. -/
theorem forall_mem_iff_of_forall₂ {α β : Type} {R : α → β → Prop} {P : α → Prop} {Q : β → Prop}
    {as : List α} {bs : List β} (h : List.Forall₂ R as bs) (hsame : ∀ a b, R a b → (Q b ↔ P a)) :
    (∀ b ∈ bs, Q b) ↔ ∀ a ∈ as, P a := by
  induction h with
  | nil => simp
  | cons hab hrest ih => simp [hsame _ _ hab, ih]

namespace Table

/-! ## §2 The table of raw rows -/

/-- The header of column `j` under the cells of a header row. -/
inductive HasHeader (cells : List Cell) (j : Nat) : String → Prop where
  /-- A text in the header row is the header. -/
  | written {header : String} (h : cells[j]? = some (some header)) : HasHeader cells j header
  /-- Where there is none, the header is generated. -/
  | generated (h : ∀ header, cells[j]? ≠ some (some header)) :
      HasHeader cells j (generatedHeader j)

theorem hasHeader_iff {cells : List Cell} {j : Nat} {header : String} :
    HasHeader cells j header ↔ ((cells[j]?).join).getD (generatedHeader j) = header := by
  constructor
  · intro h
    cases h with
    | written h => simp [h]
    | generated h =>
      have hnone : (cells[j]?).join = none := by
        simp only [Option.eq_none_iff_forall_ne_some, ne_eq, Option.join_eq_some_iff]
        exact h
      simp [hnone]
  · rintro rfl
    cases hcell : (cells[j]?).join with
    | some header => exact .written (Option.join_eq_some_iff.mp hcell)
    | none =>
      refine .generated fun header h => ?_
      simp [h] at hcell

/-- No cell of the row holds a text. -/
def IsEmptyRow (row : List Cell) : Prop :=
  ∀ cell ∈ row, cell = none

theorem isBlankRow_iff {row : List Cell} : isBlankRow row = true ↔ IsEmptyRow row := by
  simp [isBlankRow, IsEmptyRow]

/-- The table is made of the raw rows, the first of which stands on row `headerRow` of its sheet. -/
structure IsMadeOf (raw : List (List Cell)) (headerRow : Nat) (t : Table) : Prop where
  /-- No raw row is wider than the table. -/
  wide : ∀ row ∈ raw, row.length ≤ t.width
  /-- One is as wide, unless there is no column at all. -/
  tight : t.width = 0 ∨ ∃ row ∈ raw, row.length = t.width
  /-- The headers are those of the first raw row. -/
  headers : ∀ j header, t.headers[j]? = some header → HasHeader (raw.headD []) j header
  /-- Every data row has a cell in each column. -/
  full : ∀ row ∈ t.rows, row.length = t.width
  /-- Data row `i` is raw row `i + 1` and empty cells behind it. -/
  rows : ∀ i row, t.rows[i]? = some row →
    ∃ short k, raw[i + 1]? = some short ∧ row = short ++ List.replicate k none
  /-- No more than `k` rows are kept exactly when all raw rows behind them are empty: those left out
  are the longest run of empty rows at the end. -/
  leftOut : ∀ k, t.rows.length ≤ k ↔ ∀ row ∈ raw.drop (k + 1), IsEmptyRow row
  /-- The header stands on the given row of the sheet, or on its first. -/
  headerRow : t.headerRow = max headerRow 1

theorem headers_ofRowsAt_iff {raw : List (List Cell)} {headerRow j : Nat} {header : String} :
    (ofRowsAt raw headerRow).headers[j]? = some header ↔
      j < widest raw ∧ HasHeader (raw.headD []) j header := by
  have hheaders : (ofRowsAt raw headerRow).headers = headersOf (widest raw) (raw.headD []) := rfl
  rw [hheaders, headersOf, List.getElem?_map, hasHeader_iff]
  by_cases hj : j < widest raw
  · simp [hj]
  · simp [hj]

/-- So many rows are left when blank ones are dropped from the end that all behind them are blank. -/
theorem length_dropBlankEnd_le_iff {rows : List (List Cell)} {k : Nat} :
    (dropBlankEnd rows).length ≤ k ↔ ∀ row ∈ rows.drop k, isBlankRow row = true := by
  change (rows.rdropWhile isBlankRow).length ≤ k ↔ _
  induction rows using List.reverseRecOn with
  | nil => simp
  | append_singleton rows last ih =>
    by_cases hlast : isBlankRow last = true
    · rw [List.rdropWhile_concat_pos isBlankRow rows last hlast, ih, List.drop_append]
      -- the last row is blank, so it does not matter whether it is among those behind
      have hmem : ∀ row ∈ [last].drop (k - rows.length), isBlankRow row = true := fun row hrow =>
        List.mem_singleton.mp (List.mem_of_mem_drop hrow) ▸ hlast
      rw [List.forall_mem_append]
      exact (and_iff_left hmem).symm
    · rw [List.rdropWhile_concat_neg isBlankRow rows last hlast]
      constructor
      · intro hle
        simp [List.drop_eq_nil_of_le hle]
      · intro hblank
        by_contra hlt
        have hlen : k ≤ rows.length := by simpa [Nat.lt_succ_iff] using hlt
        apply hlast
        apply hblank
        simp [List.drop_append_of_le_length hlen]

theorem length_rows_ofRowsAt_le_iff {raw : List (List Cell)} {headerRow k : Nat} :
    (ofRowsAt raw headerRow).rows.length ≤ k ↔ ∀ row ∈ raw.drop (k + 1), IsEmptyRow row := by
  have hrows : (ofRowsAt raw headerRow).rows =
      dropBlankEnd (raw.tail.map (padded (widest raw))) := rfl
  rw [hrows, length_dropBlankEnd_le_iff, ← List.map_drop, List.drop_tail, List.forall_mem_map]
  refine forall₂_congr fun row hrow => ?_
  -- padding makes no text
  have hshort : row.length ≤ widest raw := length_le_widest (List.mem_of_mem_drop hrow)
  rw [padded_of_length_le hshort, isBlankRow_append_none, isBlankRow_iff]

/-- The table of raw rows is made of them. -/
theorem isMadeOf_ofRowsAt (raw : List (List Cell)) (headerRow : Nat) :
    IsMadeOf raw headerRow (ofRowsAt raw headerRow) where
  wide row hrow := by
    rw [width_ofRowsAt]
    exact length_le_widest hrow
  tight := by
    rw [width_ofRowsAt]
    by_cases hne : raw = []
    · exact Or.inl (hne ▸ rfl)
    · exact Or.inr (exists_length_eq_widest hne)
  headers j header h := (headers_ofRowsAt_iff.mp h).2
  full row hrow := length_of_mem_rows hrow
  rows i row hrow := by
    obtain ⟨hlt, -⟩ := List.getElem?_eq_some_iff.mp hrow
    obtain ⟨short, hshort, hpadded⟩ := exists_raw_of_row hlt
    have hle : short.length ≤ (ofRowsAt raw headerRow).width :=
      width_ofRowsAt raw headerRow ▸ length_le_widest (List.mem_of_getElem? hshort)
    rw [hrow, padded_of_length_le hle] at hpadded
    exact ⟨short, _, hshort, Option.some.inj hpadded⟩
  leftOut k := length_rows_ofRowsAt_le_iff
  headerRow := rfl

section IsMadeOf

variable {raw raw' : List (List Cell)} {headerRow : Nat} {t t' : Table}

theorem IsMadeOf.width_le (h : IsMadeOf raw headerRow t) (h' : IsMadeOf raw headerRow t') :
    t.width ≤ t'.width := by
  rcases h.tight with hzero | ⟨row, hrow, hlength⟩
  · omega
  · exact hlength ▸ h'.wide row hrow

theorem IsMadeOf.length_rows_le (h : IsMadeOf raw headerRow t) (h' : IsMadeOf raw headerRow t') :
    t.rows.length ≤ t'.rows.length :=
  (h.leftOut _).mpr ((h'.leftOut _).mp (Nat.le_refl _))

/-- Two tables that are made of the same raw rows are the same. -/
theorem IsMadeOf.unique (h : IsMadeOf raw headerRow t) (h' : IsMadeOf raw headerRow t') :
    t = t' := by
  have hwidth : t.width = t'.width := Nat.le_antisymm (h.width_le h') (h'.width_le h)
  have hheaders : t.headers = t'.headers := by
    -- a column has one header under the cells of the first raw row
    refine List.ext_getElem hwidth fun j hj hj' => ?_
    have hheader := hasHeader_iff.mp (h.headers j _ (List.getElem?_eq_getElem hj))
    have hheader' := hasHeader_iff.mp (h'.headers j _ (List.getElem?_eq_getElem hj'))
    exact hheader.symm.trans hheader'
  have hrows : t.rows = t'.rows := by
    apply List.ext_getElem (Nat.le_antisymm (h.length_rows_le h') (h'.length_rows_le h))
    intro i hi hi'
    obtain ⟨short, k, hshort, hrow⟩ := h.rows i _ (List.getElem?_eq_getElem hi)
    obtain ⟨short', k', hshort', hrow'⟩ := h'.rows i _ (List.getElem?_eq_getElem hi')
    obtain rfl : short = short' := Option.some.inj (hshort.symm.trans hshort')
    -- both rows are the raw row, made as long as the table is wide
    have hlength : t.rows[i].length = t'.rows[i].length := by
      rw [h.full _ (List.getElem_mem hi), h'.full _ (List.getElem_mem hi'), hwidth]
    have hk : k = k' := by simpa [hrow, hrow'] using hlength
    rw [hrow, hrow', hk]
  cases t
  cases t'
  simp only [mk.injEq]
  exact ⟨hheaders, hrows, h.headerRow.trans h'.headerRow.symm⟩

/-- **Just one table** is made of raw rows. -/
theorem ofRowsAt_eq_iff_isMadeOf : ofRowsAt raw headerRow = t ↔ IsMadeOf raw headerRow t := by
  constructor
  · rintro rfl
    exact isMadeOf_ofRowsAt raw headerRow
  · exact (isMadeOf_ofRowsAt raw headerRow).unique

/-! ## §3 A table made again -/

/-- The headers and the data rows of a table as raw rows. -/
def rawRows (t : Table) : List (List Cell) :=
  t.headers.map some :: t.rows

/-- The rows are as wide as the table, the last of them holds a text, and the header stands on a row
of the sheet. -/
structure IsRegular (t : Table) : Prop where
  /-- Every data row has a cell in each column. -/
  full : ∀ row ∈ t.rows, row.length = t.width
  /-- There is a text in the last data row. -/
  last : ∀ row, t.rows.getLast? = some row → ∃ s, some s ∈ row
  /-- The header stands on a row of the sheet. -/
  headerRow : 1 ≤ t.headerRow

theorem IsMadeOf.isRegular (h : IsMadeOf raw headerRow t) : t.IsRegular where
  full := h.full
  last row hrow := by
    have hne : t.rows ≠ [] := fun hnil => by simp [hnil] at hrow
    have hpos : 0 < t.rows.length := List.length_pos_iff.mpr hne
    rw [List.getLast?_eq_getElem?] at hrow
    obtain ⟨short, k, hshort, rfl⟩ := h.rows _ row hrow
    rw [Nat.sub_add_cancel hpos] at hshort
    by_contra hnone
    have hempty : IsEmptyRow short := fun cell hcell =>
      Option.eq_none_iff_forall_ne_some.mpr fun s hs =>
        hnone ⟨s, List.mem_append_left _ (hs ▸ hcell)⟩
    -- were the last row empty, it would be left out
    have hlength : t.rows.length ≤ t.rows.length - 1 := by
      rw [h.leftOut, Nat.sub_add_cancel hpos]
      obtain ⟨hlt, rfl⟩ := List.getElem?_eq_some_iff.mp hshort
      rw [List.drop_eq_getElem_cons hlt, List.forall_mem_cons]
      exact ⟨hempty, (h.leftOut _).mp (Nat.le_refl _)⟩
    omega
  headerRow := h.headerRow ▸ Nat.le_max_right headerRow 1

theorem IsRegular.isMadeOf (h : t.IsRegular) : IsMadeOf t.rawRows t.headerRow t where
  wide row hrow := by
    rcases List.mem_cons.mp hrow with rfl | hrow
    · simp [width]
    · exact Nat.le_of_eq (h.full row hrow)
  tight := Or.inr ⟨_, List.mem_cons_self, by simp [width]⟩
  headers j header hheader := .written (by simp [rawRows, hheader])
  full := h.full
  rows i row hrow := ⟨row, 0, hrow, by simp⟩
  leftOut k := by
    rw [rawRows, List.drop_succ_cons]
    constructor
    · intro hle
      simp [List.drop_eq_nil_of_le hle]
    · intro hempty
      by_contra hlt
      have hne : t.rows ≠ [] := fun hnil => hlt (by simp [hnil])
      -- the last row is among those behind, and holds a text
      have hmem : t.rows.getLast hne ∈ t.rows.drop k := by
        rw [← List.getLast_drop (by simpa using hlt)]
        exact List.getLast_mem _
      obtain ⟨s, hs⟩ := h.last _ (List.getLast?_eq_some_getLast hne)
      exact Option.some_ne_none s (hempty _ hmem _ hs)
  headerRow := (Nat.max_eq_left h.headerRow).symm

/-- **The tables made of rows** are those that come out again when they are made of their own headers
and rows. -/
theorem ofRowsAt_rawRows_iff : ofRowsAt t.rawRows t.headerRow = t ↔ t.IsRegular := by
  rw [ofRowsAt_eq_iff_isMadeOf]
  exact ⟨IsMadeOf.isRegular, IsRegular.isMadeOf⟩

/-! ## §4 Empty rows and cells -/

/-- A table is made of the raw rows with empty rows below as well. -/
theorem IsMadeOf.append_empty (h : IsMadeOf raw headerRow t) {below : List (List Cell)}
    (hempty : ∀ row ∈ below, IsEmptyRow row) (hwide : ∀ row ∈ below, row.length ≤ t.width) :
    IsMadeOf (raw ++ below) headerRow t where
  wide := List.forall_mem_append.mpr ⟨h.wide, hwide⟩
  tight := h.tight.imp_right fun ⟨row, hrow, hlength⟩ =>
    ⟨row, List.mem_append_left below hrow, hlength⟩
  headers j header hheader := by
    have hsame := h.headers j header hheader
    cases raw with
    | cons first rest => exact hsame
    | nil =>
      -- without raw rows there is no column
      have hzero : t.headers.length = 0 := h.tight.resolve_right (by simp)
      simp [List.length_eq_zero_iff.mp hzero] at hheader
  full := h.full
  rows i row hrow := by
    obtain ⟨short, k, hshort, rfl⟩ := h.rows i row hrow
    obtain ⟨hlt, -⟩ := List.getElem?_eq_some_iff.mp hshort
    exact ⟨short, k, by rw [List.getElem?_append_left hlt, hshort], rfl⟩
  leftOut k := by
    have hbelow : ∀ row ∈ below.drop (k + 1 - raw.length), IsEmptyRow row := fun row hrow =>
      hempty row (List.mem_of_mem_drop hrow)
    rw [h.leftOut, List.drop_append, List.forall_mem_append]
    exact (and_iff_left hbelow).symm
  headerRow := h.headerRow

/-- The row with empty cells behind it, up to the given width. -/
def IsFilled (width : Nat) (row row' : List Cell) : Prop :=
  ∃ k, row' = row ++ List.replicate k none ∧ row'.length ≤ width

theorem isEmptyRow_iff_of_isFilled {width : Nat} {row row' : List Cell}
    (h : IsFilled width row row') : IsEmptyRow row' ↔ IsEmptyRow row := by
  obtain ⟨k, rfl, -⟩ := h
  rw [← isBlankRow_iff, ← isBlankRow_iff, isBlankRow_append_none]

theorem HasHeader.of_isFilled {width j : Nat} {cells cells' : List Cell} {header : String}
    (h : HasHeader cells j header) (hfilled : IsFilled width cells cells') :
    HasHeader cells' j header := by
  obtain ⟨k, rfl, -⟩ := hfilled
  cases h with
  | written h =>
    obtain ⟨hlt, -⟩ := List.getElem?_eq_some_iff.mp h
    exact .written (by rw [List.getElem?_append_left hlt, h])
  | generated h =>
    refine .generated fun header hheader => ?_
    -- a text does not stand among the added cells
    by_cases hj : j < cells.length
    · exact h header (by rwa [List.getElem?_append_left hj] at hheader)
    · simp [List.getElem?_append_right (Nat.not_lt.mp hj), List.getElem?_replicate] at hheader

/-- A table is made of the raw rows with empty cells behind them as well. -/
theorem IsMadeOf.fill (h : IsMadeOf raw headerRow t)
    (hfilled : List.Forall₂ (IsFilled t.width) raw raw') : IsMadeOf raw' headerRow t where
  wide row' hrow' := by
    obtain ⟨i, hrow'⟩ := List.getElem?_of_mem hrow'
    obtain ⟨row, -, k, -, hle⟩ := exists_getElem?_of_forall₂ hfilled.flip hrow'
    exact hle
  tight := by
    refine h.tight.imp_right fun ⟨row, hrow, hlength⟩ => ?_
    obtain ⟨i, hrow⟩ := List.getElem?_of_mem hrow
    obtain ⟨row', hrow', k, rfl, hle⟩ := exists_getElem?_of_forall₂ hfilled hrow
    -- a row that is as wide as the table has got no cell
    refine ⟨_, List.mem_of_getElem? hrow', Nat.le_antisymm hle ?_⟩
    simp [← hlength]
  headers j header hheader := by
    have hsame := h.headers j header hheader
    cases hfilled with
    | nil => exact hsame
    | cons hfirst hrest => exact hsame.of_isFilled hfirst
  full := h.full
  rows i row hrow := by
    obtain ⟨short, k, hshort, rfl⟩ := h.rows i row hrow
    obtain ⟨short', hshort', m, rfl, hle⟩ := exists_getElem?_of_forall₂ hfilled hshort
    have hlength := h.full _ (List.mem_of_getElem? hrow)
    simp only [List.length_append, List.length_replicate] at hle hlength
    -- what is still missing are the cells that have not been added
    refine ⟨_, k - m, hshort', ?_⟩
    rw [List.append_assoc, List.replicate_append_replicate, Nat.add_sub_cancel' (by omega)]
  leftOut k := by
    rw [h.leftOut]
    exact (forall_mem_iff_of_forall₂ (List.forall₂_drop (k + 1) hfilled)
      fun _ _ => isEmptyRow_iff_of_isFilled).symm
  headerRow := h.headerRow

/-- **Raw rows and their table**: a table is made of its raw rows, row by row and column by column,
and is regular. Made of its own headers and rows, below its own header row, it is the same again.
Empty rows below that are no wider than the table change nothing, and neither do empty cells behind
rows, up to its width. -/
theorem ofRowsAt_laws (raw : List (List Cell)) (headerRow : Nat) :
    IsMadeOf raw headerRow (ofRowsAt raw headerRow) ∧
      (ofRowsAt raw headerRow).IsRegular ∧
      ofRowsAt (ofRowsAt raw headerRow).rawRows (ofRowsAt raw headerRow).headerRow =
        ofRowsAt raw headerRow ∧
      (∀ below, (∀ row ∈ below, IsEmptyRow row) →
        (∀ row ∈ below, row.length ≤ (ofRowsAt raw headerRow).width) →
        ofRowsAt (raw ++ below) headerRow = ofRowsAt raw headerRow) ∧
      ∀ raw', List.Forall₂ (IsFilled (ofRowsAt raw headerRow).width) raw raw' →
        ofRowsAt raw' headerRow = ofRowsAt raw headerRow := by
  have hmade := isMadeOf_ofRowsAt raw headerRow
  refine ⟨hmade, hmade.isRegular, ofRowsAt_rawRows_iff.mpr hmade.isRegular, ?_, ?_⟩
  · intro below hempty hwide
    exact ofRowsAt_eq_iff_isMadeOf.mpr (hmade.append_empty hempty hwide)
  · intro raw' hfilled
    exact ofRowsAt_eq_iff_isMadeOf.mpr (hmade.fill hfilled)

end IsMadeOf

-- the widest row gives two more columns, and the blank row at the end is left out
example : ofRows [[some "key", none], [some "a"], [], [some "b", some "x", none, some "y"], [none]] =
    { headers := ["key", "col_1", "col_2", "col_3"]
      rows := [[some "a", none, none, none], [none, none, none, none],
        [some "b", some "x", none, some "y"]]
      headerRow := 1 } := by
  decide +kernel

end Table

end MetadataCatalog
