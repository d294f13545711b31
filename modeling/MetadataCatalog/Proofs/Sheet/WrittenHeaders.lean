import MetadataCatalog.Proofs.Sheet.RawRows

/-!
# Written headers

Which column a header leads to. Texts of the header row and names generated for its empty cells are
headers alike, and the leftmost column of a name is taken. So a header that is written leads to the
leftmost column where it is written, unless an empty cell further left gets this very name: then it
leads there (`Table.columnIndex?_of_writtenAt`).
-/

namespace MetadataCatalog

theorem Decimal.natText_injective : Function.Injective natText := by
  intro n m h
  have hchars : natChars n = natChars m := String.ofList_injective h
  rw [← value_natChars n, hchars, value_natChars]

namespace Table

/-! ## §1 Headers and columns -/

/-- No two columns get the same name. -/
theorem generatedHeader_injective : Function.Injective generatedHeader := by
  intro i j h
  apply Decimal.natText_injective
  simpa [generatedHeader] using h

/-- A header leads to a column that has it and has none further left that has it. -/
theorem columnIndex?_eq_some_iff {raw : List (List Cell)} {headerRow c : Nat} {header : String} :
    (ofRowsAt raw headerRow).columnIndex? header = some c ↔
      (c < widest raw ∧ HasHeader (raw.headD []) c header) ∧
        ∀ j < c, ¬ HasHeader (raw.headD []) j header := by
  rw [columnIndex?, findIdx?_eq_some_iff_leftmostAt, LeftmostAt, headers_ofRowsAt_iff]
  apply and_congr_right
  intro hc
  refine forall₂_congr fun j hj => ?_
  -- a column further left is a column of the table
  have hwidth : j < widest raw := Nat.lt_trans hj hc.1
  simp [headers_ofRowsAt_iff, hwidth]

/-- Column `c` is the leftmost one in whose header cell the text stands. -/
structure WrittenAt (cells : List Cell) (header : String) (c : Nat) : Prop where
  text : cells[c]? = some (some header)
  left : ∀ j < c, cells[j]? ≠ some (some header)

/-- The header cell of column `j`, which stands left of column `c`, is empty, and the name generated
for it is the header. -/
structure Shadows (cells : List Cell) (header : String) (c j : Nat) : Prop where
  left : j < c
  empty : cells[j]? = some none
  name : generatedHeader j = header

section WrittenAt

variable {cells : List Cell} {header : String} {c : Nat}

theorem Shadows.unique {j k : Nat} (h : Shadows cells header c j) (h' : Shadows cells header c k) :
    j = k :=
  generatedHeader_injective (h.name.trans h'.name.symm)

/-- Left of the column where it is written a header comes from empty cells only. -/
theorem WrittenAt.hasHeader_iff_shadows (h : WrittenAt cells header c) {j : Nat} (hj : j < c) :
    HasHeader cells j header ↔ Shadows cells header c j := by
  constructor
  · intro hheader
    cases hheader with
    | written htext => exact absurd htext (h.left j hj)
    | generated hnone =>
      refine ⟨hj, ?_, rfl⟩
      -- the header row goes on to the column where the text stands
      obtain ⟨hc, -⟩ := List.getElem?_eq_some_iff.mp h.text
      have hlt : j < cells.length := Nat.lt_trans hj hc
      cases hcell : cells[j] with
      | none => rw [List.getElem?_eq_getElem hlt, hcell]
      | some text => exact absurd (by rw [List.getElem?_eq_getElem hlt, hcell]) (hnone text)
  · rintro ⟨-, hempty, rfl⟩
    exact .generated (by simp [hempty])

theorem WrittenAt.lt_widest {raw : List (List Cell)} (h : WrittenAt (raw.headD []) header c) :
    c < widest raw := by
  obtain ⟨hc, -⟩ := List.getElem?_eq_some_iff.mp h.text
  cases raw with
  | nil => simp at hc
  | cons first rest => exact Nat.lt_of_lt_of_le hc (length_le_widest List.mem_cons_self)

/-! ## §2 Written headers -/

/-- **Written headers**: a header that is written in the header row leads to the leftmost column
where it is written exactly when no empty header cell further left gets this name, and if one does,
it leads to that column. -/
theorem columnIndex?_of_writtenAt {raw : List (List Cell)} (h : WrittenAt (raw.headD []) header c)
    (headerRow : Nat) :
    ((ofRowsAt raw headerRow).columnIndex? header = some c ↔
        ∀ j, ¬ Shadows (raw.headD []) header c j) ∧
      ∀ j, Shadows (raw.headD []) header c j →
        (ofRowsAt raw headerRow).columnIndex? header = some j := by
  simp only [columnIndex?_eq_some_iff]
  constructor
  · constructor
    · rintro ⟨-, hleft⟩ j hj
      exact hleft j hj.left ((h.hasHeader_iff_shadows hj.left).mpr hj)
    · intro hnone
      refine ⟨⟨h.lt_widest, .written h.text⟩, fun j hj hheader => ?_⟩
      exact hnone j ((h.hasHeader_iff_shadows hj).mp hheader)
  · intro j hj
    refine ⟨⟨Nat.lt_trans hj.left h.lt_widest, (h.hasHeader_iff_shadows hj.left).mpr hj⟩, ?_⟩
    -- another column further left would get the same name
    intro k hk hheader
    have hshadows := (h.hasHeader_iff_shadows (Nat.lt_trans hk hj.left)).mp hheader
    exact Nat.ne_of_lt hk (hshadows.unique hj)

end WrittenAt

/-- A header row with an empty cell whose name stands further right. -/
def gappedHeader : List Cell :=
  [some "key", none, some "values", some "col_1"]

/-- The values are found where they are written, and what is written as `col_1` is not. -/
theorem columnIndex?_of_writtenAt_gapped :
    (WrittenAt gappedHeader "values" 2 ∧
        (ofRowsAt [gappedHeader] 1).columnIndex? "values" = some 2) ∧
      WrittenAt gappedHeader "col_1" 3 ∧
        (ofRowsAt [gappedHeader] 1).columnIndex? "col_1" = some 1 := by
  have hvalues : WrittenAt ([gappedHeader].headD []) "values" 2 := ⟨rfl, by decide⟩
  have hname : WrittenAt ([gappedHeader].headD []) "col_1" 3 := ⟨rfl, by decide⟩
  refine ⟨⟨hvalues, ?_⟩, hname, ?_⟩
  · apply (columnIndex?_of_writtenAt hvalues 1).1.mpr
    rintro j ⟨hj, -, hsame⟩
    exact (show ∀ j < 2, generatedHeader j ≠ "values" by decide +kernel) j hj hsame
  · apply (columnIndex?_of_writtenAt hname 1).2
    exact ⟨by decide, rfl, by decide +kernel⟩

/-- **A generated name hides a written header**: the header row has an empty cell and the text
`col_0`, which leads to the empty cell's column. -/
theorem generated_name_hides_header :
    WrittenAt [none, some "col_0"] "col_0" 1 ∧
      (ofRows [[none, some "col_0"]]).columnIndex? "col_0" = some 0 := by
  refine ⟨⟨rfl, by decide⟩, ?_⟩
  decide +kernel

end Table

end MetadataCatalog
