import MetadataCatalog.Storage.Content
import Mathlib.Data.List.Basic

/-!
# Lines and records

A reader that passes over the blank lines of a sheet no longer knows where its records stand. Here
it is made to count them: `Csv.lines` has a row without fields for each blank line, so the rows are
those that a spreadsheet application shows. Without them it is what is read
(`Csv.records_eq_filter_lines`, and `Content.records?_eq_filter_lines` for files).
-/

namespace MetadataCatalog.Csv

/-! ## §1 Counting blank lines -/

section Machine

variable {α : Type} [DecidableEq α]

/-- One transition of a reader that keeps blank lines. It remembers whether the last symbol was a
carriage return, as a feed behind one ends no further line. -/
def lineStep (k : Alphabet α) (s : State α × Bool) (a : α) : State α × Bool :=
  if s.1.mode = .beforeRecord ∧ (a = k.feed ∨ a = k.carriage) then
    -- the feed behind a carriage return belongs to the line that has ended
    if a = k.feed ∧ s.2 then (s.1, false)
    else ({ s.1 with records := [] :: s.1.records }, a = k.carriage)
  else (step k s.1 a, a = k.carriage)

/-- The lines of a sheet: the records, and a row without fields for each blank line. -/
def lines (k : Alphabet α) (symbols : List α) : List (List (List α)) :=
  finish (symbols.foldl (lineStep k) (.start, false)).1

/-- The state without its blank lines. -/
def State.dropBlank (s : State α) : State α :=
  { s with records := s.records.filter (· ≠ []) }

omit [DecidableEq α] in
/-- A record that ends has a field, so it is no blank line. -/
theorem dropBlank_endRecord (s : State α) : s.endRecord.dropBlank = s.dropBlank.endRecord := by
  simp [State.dropBlank, State.endRecord]

theorem outside_dropBlank (k : Alphabet α) (s : State α) (a : α) :
    outside k s.dropBlank a = (outside k s a).dropBlank := by
  unfold outside
  split
  · rfl
  · split
    · exact (dropBlank_endRecord s).symm
    · rfl

theorem opening_dropBlank (k : Alphabet α) (s : State α) (a : α) :
    opening k s.dropBlank a = (opening k s a).dropBlank := by
  unfold opening
  split
  · rfl
  · exact outside_dropBlank k s a

theorem step_dropBlank (k : Alphabet α) (s : State α) (a : α) :
    step k s.dropBlank a = (step k s a).dropBlank := by
  have hmode : s.dropBlank.mode = s.mode := rfl
  unfold step
  rw [hmode]
  cases s.mode with
  | beforeRecord =>
    dsimp only
    split
    · rfl
    · exact opening_dropBlank k s a
  | beforeField => exact opening_dropBlank k s a
  | plain => exact outside_dropBlank k s a
  | quoted =>
    dsimp only
    split <;> rfl
  | behindQuote =>
    dsimp only
    split
    · rfl
    · exact outside_dropBlank k s a

/-- The plain reader does as this one does, but for the blank lines. -/
theorem step_lineStep (k : Alphabet α) (s : State α × Bool) (a : α) :
    step k s.1.dropBlank a = (lineStep k s a).1.dropBlank := by
  unfold lineStep
  split
  · next h =>
    -- a blank line ends: the plain reader stays where it is
    have hstay : step k s.1.dropBlank a = s.1.dropBlank := by
      unfold step
      have hmode : s.1.dropBlank.mode = .beforeRecord := h.1
      rw [hmode]
      exact if_pos h.2
    rw [hstay]
    split
    · rfl
    · simp [State.dropBlank]
  · exact step_dropBlank k s.1 a

theorem foldl_step_dropBlank (k : Alphabet α) (symbols : List α) (s : State α × Bool) :
    symbols.foldl (step k) s.1.dropBlank = (symbols.foldl (lineStep k) s).1.dropBlank := by
  induction symbols generalizing s with
  | nil => rfl
  | cons a rest ih => rw [List.foldl_cons, List.foldl_cons, step_lineStep, ih]

omit [DecidableEq α] in
theorem finish_dropBlank (s : State α) : finish s.dropBlank = (finish s).filter (· ≠ []) := by
  have hreverse : ∀ t : State α, t.dropBlank.records.reverse =
      t.records.reverse.filter (· ≠ []) := fun t => List.filter_reverse.symm
  have hmode : s.dropBlank.mode = s.mode := rfl
  -- only between records is there none that is still open
  unfold finish
  rw [hmode]
  cases s.mode with
  | beforeRecord => exact hreverse s
  | _ =>
    dsimp only
    rw [← dropBlank_endRecord]
    exact hreverse _

/-- **Records**: what is read of a sheet are its lines without the blank ones. -/
theorem records_eq_filter_lines (k : Alphabet α) (symbols : List α) :
    records k symbols = (lines k symbols).filter (· ≠ []) := by
  unfold records lines
  rw [← finish_dropBlank, ← foldl_step_dropBlank]
  rfl

end Machine

/-! ## §2 Lines of files -/

/-- The lines of a text; a byte order mark in front does not count. -/
def linesOfText (s : String) : List (List String) :=
  (lines .chars (withoutMark [Char.ofNat 0xFEFF] s.toList)).map (·.map String.ofList)

/-- The lines of octets, if every field is text; a byte order mark in front does not count. -/
def linesOfOctets? (octets : List UInt8) : Option (List (List String)) :=
  (lines .octets (withoutMark [0xEF, 0xBB, 0xBF] octets)).mapM (·.mapM decode?)

/-- A change of each field leaves blank lines blank and the others not. -/
theorem filter_ne_nil_map {α β : Type} (f : α → β) (rows : List (List α)) :
    (rows.filter (· ≠ [])).map (·.map f) = (rows.map (·.map f)).filter (· ≠ []) := by
  rw [List.filter_map]
  refine congrArg _ (List.filter_congr fun row _ => ?_)
  simp

theorem ne_nil_of_mapM_cons {α β : Type} {f : α → Option β} {a : α} {rest : List α}
    {images : List β} (h : (a :: rest).mapM f = some images) : images ≠ [] := by
  rw [List.mapM_cons] at h
  obtain ⟨b, -, h⟩ := Option.bind_eq_some_iff.mp h
  obtain ⟨more, -, h⟩ := Option.bind_eq_some_iff.mp h
  cases h
  exact List.cons_ne_nil b more

theorem mapM_filter_ne_nil {α β : Type} (f : α → Option β) (rows : List (List α)) :
    (rows.filter (· ≠ [])).mapM (fun row : List α => row.mapM f) =
      (rows.mapM fun row : List α => row.mapM f).map fun decoded => decoded.filter (· ≠ []) := by
  induction rows with
  | nil => rfl
  | cons row rest ih =>
    rw [List.mapM_cons]
    -- a blank line is decoded to a blank line, and a row with fields to one with fields
    cases row with
    | nil =>
      rw [List.filter_cons_of_neg (by simp), ih]
      cases rest.mapM fun row : List α => row.mapM f <;> rfl
    | cons field more =>
      rw [List.filter_cons_of_pos (by simp), List.mapM_cons, ih]
      cases hrow : (field :: more).mapM f with
      | none => rfl
      | some decoded =>
        have hne := ne_nil_of_mapM_cons hrow
        cases rest.mapM fun row : List α => row.mapM f with
        | none => rfl
        | some images => simp [hne]

theorem ofText_eq_filter_lines (s : String) :
    ofText s = (linesOfText s).filter (· ≠ []) := by
  rw [ofText, records_eq_filter_lines, filter_ne_nil_map]
  rfl

theorem ofOctets?_eq_filter_lines (octets : List UInt8) :
    ofOctets? octets = (linesOfOctets? octets).map fun rows => rows.filter (· ≠ []) := by
  rw [ofOctets?, records_eq_filter_lines, mapM_filter_ne_nil]
  rfl

end MetadataCatalog.Csv

namespace MetadataCatalog.Content

/-- The lines of a file that holds a sheet of comma-separated fields. -/
def lines? : Content → Option (List (List String))
  | .text s => some (Csv.linesOfText s)
  | .octets bytes => Csv.linesOfOctets? bytes
  | _ => none

theorem records?_eq_filter_lines (content : Content) :
    content.records? = content.lines?.map fun rows => rows.filter (· ≠ []) := by
  cases content with
  | text s => exact congrArg some (Csv.ofText_eq_filter_lines s)
  | octets bytes => exact Csv.ofOctets?_eq_filter_lines bytes
  | _ => rfl

end MetadataCatalog.Content
