import MetadataCatalog.Proofs.Sheet.Lines

/-!
# Written sheets

Sheets of comma-separated fields as they are usually written: a field bare or between quotes, where
a quote is written twice, commas between the fields of a record, one record on a line. What is
written this way is read back line by line (`Csv.lines_of_writes`).
-/

namespace MetadataCatalog.Csv

/-! ## §1 Written sheets -/

/-- A symbol between quotes: a quote is written twice. -/
def doubled (c : Char) : List Char :=
  if c = '"' then ['"', '"'] else [c]

/-- How a field is written: as it is, if none of its symbols means anything, or between quotes. -/
inductive WritesField : List Char → List Char → Prop where
  /-- Bare, without commas, quotes and line breaks. -/
  | bare {field : List Char} (h : ∀ c ∈ field, c ≠ ',' ∧ c ≠ '"' ∧ c ≠ '\n' ∧ c ≠ '\r') :
      WritesField field field
  /-- Between quotes, with each quote doubled. -/
  | quoted (field : List Char) : WritesField field ('"' :: (field.flatMap doubled ++ ['"']))

/-- How a record is written: its fields with commas between them. -/
inductive WritesRecord : List (List Char) → List Char → Prop where
  | one {field text : List Char} (h : WritesField field text) : WritesRecord [field] text
  | more {field text : List Char} {rest : List (List Char)} {behind : List Char}
      (h : WritesField field text) (hrest : WritesRecord rest behind) :
      WritesRecord (field :: rest) (text ++ ',' :: behind)

/-- The ends of lines. -/
inductive IsLineEnd : List Char → Prop where
  | feed : IsLineEnd ['\n']
  | both : IsLineEnd ['\r', '\n']

/-- How a sheet is written: one line for each row, and a blank line for a row without fields. The
last line need not be ended. -/
inductive Writes : List (List (List Char)) → List Char → Prop where
  | none : Writes [] []
  | last {record : List (List Char)} {text : List Char} (h : WritesRecord record text)
      (hne : text ≠ []) : Writes [record] text
  | line {record : List (List Char)} {text ending : List Char} {rows : List (List (List Char))}
      {behind : List Char} (h : WritesRecord record text) (hne : text ≠ [])
      (hending : IsLineEnd ending) (hrest : Writes rows behind) :
      Writes (record :: rows) (text ++ ending ++ behind)
  | blank {ending : List Char} {rows : List (List (List Char))} {behind : List Char}
      (hending : IsLineEnd ending) (hrest : Writes rows behind) :
      Writes ([] :: rows) (ending ++ behind)

/-- A field between quotes. -/
def quotedField (field : List Char) : List Char :=
  '"' :: (field.flatMap doubled ++ ['"'])

/-- A record with all its fields between quotes. -/
def quotedRecord : List (List Char) → List Char
  | [] => []
  | [field] => quotedField field
  | field :: next :: rest => quotedField field ++ ',' :: quotedRecord (next :: rest)

/-- A sheet with all its fields between quotes. -/
def quotedSheet : List (List (List Char)) → List Char
  | [] => []
  | row :: rows => quotedRecord row ++ ['\n'] ++ quotedSheet rows

theorem writesRecord_quotedRecord (field : List Char) (rest : List (List Char)) :
    WritesRecord (field :: rest) (quotedRecord (field :: rest)) := by
  induction rest generalizing field with
  | nil => exact .one (.quoted field)
  | cons next rest ih => exact .more (.quoted field) (ih next)

/-- Whatever the rows hold, there is a text that writes them. -/
theorem writes_quotedSheet (rows : List (List (List Char))) : Writes rows (quotedSheet rows) := by
  induction rows with
  | nil => exact .none
  | cons row rows ih =>
    cases row with
    | nil => exact .blank .feed ih
    | cons field rest =>
      refine .line (writesRecord_quotedRecord field rest) ?_ .feed ih
      cases rest <;> simp [quotedRecord, quotedField]

/-! ## §2 Reading what is written -/

/-- The reader of lines after a text. -/
def readOn (s : State Char × Bool) (text : List Char) : State Char × Bool :=
  text.foldl (lineStep .chars) s

theorem readOn_append (s : State Char × Bool) (text more : List Char) :
    readOn s (text ++ more) = readOn (readOn s text) more :=
  List.foldl_append

/-- Between a record's fields and at its beginning a field can begin. -/
def Mode.IsOpen (mode : Mode) : Prop :=
  mode = .beforeRecord ∨ mode = .beforeField

theorem lineStep_comma {s : State Char} (h : s.mode ≠ .quoted) (b : Bool) :
    lineStep .chars (s, b) ',' = (s.endField, false) := by
  obtain ⟨mode, field, fields, records⟩ := s
  cases mode <;> first | rfl | exact absurd rfl h

theorem lineStep_end {s : State Char} {c : Char} (hc : c = '\n' ∨ c = '\r')
    (hquoted : s.mode ≠ .quoted) (hrecord : s.mode ≠ .beforeRecord) (b : Bool) :
    lineStep .chars (s, b) c = (s.endRecord, decide (c = '\r')) := by
  obtain ⟨mode, field, fields, records⟩ := s
  rcases hc with rfl | rfl <;> cases mode <;>
    first | rfl | exact absurd rfl hquoted | exact absurd rfl hrecord

theorem lineStep_plain {c : Char} (h : c ≠ ',' ∧ c ≠ '"' ∧ c ≠ '\n' ∧ c ≠ '\r') {s : State Char}
    (hmode : s.mode.IsOpen ∨ s.mode = .plain) (b : Bool) :
    ∃ b', lineStep .chars (s, b) c = (s.keep .plain c, b') := by
  obtain ⟨mode, field, fields, records⟩ := s
  dsimp only at hmode
  rcases hmode with (rfl | rfl) | rfl <;>
    simp [lineStep, step, opening, outside, Alphabet.chars, State.keep, h]

theorem lineStep_opening_quote {s : State Char} (hmode : s.mode.IsOpen) (b : Bool) :
    ∃ b', lineStep .chars (s, b) '"' = ({ s with mode := .quoted }, b') := by
  obtain ⟨mode, field, fields, records⟩ := s
  rcases hmode with hmode | hmode <;> cases hmode <;> exact ⟨_, rfl⟩

theorem readOn_plain {cs : List Char}
    (h : ∀ c ∈ cs, c ≠ ',' ∧ c ≠ '"' ∧ c ≠ '\n' ∧ c ≠ '\r') (field : List Char)
    (fields : List (List Char)) (records : List (List (List Char))) (b : Bool) :
    ∃ b', readOn (⟨.plain, field, fields, records⟩, b) cs =
      (⟨.plain, cs.reverse ++ field, fields, records⟩, b') := by
  -- a field is gathered backwards
  induction cs generalizing field b with
  | nil => exact ⟨b, rfl⟩
  | cons c rest ih =>
    obtain ⟨b₁, hstep⟩ := lineStep_plain (h c List.mem_cons_self)
      (s := ⟨.plain, field, fields, records⟩) (Or.inr rfl) b
    obtain ⟨b₂, hrest⟩ := ih (fun d hd => h d (List.mem_cons_of_mem _ hd)) (c :: field) b₁
    refine ⟨b₂, ?_⟩
    rw [readOn, List.foldl_cons, hstep, List.reverse_cons, List.append_assoc]
    exact hrest

theorem readOn_doubled (c : Char) (field : List Char) (fields : List (List Char))
    (records : List (List (List Char))) (b : Bool) :
    ∃ b', readOn (⟨.quoted, field, fields, records⟩, b) (doubled c) =
      (⟨.quoted, c :: field, fields, records⟩, b') := by
  by_cases hc : c = '"'
  · subst hc
    exact ⟨_, rfl⟩
  · simp [readOn, doubled, lineStep, step, Alphabet.chars, State.keep, hc]

theorem readOn_quoted (cs field : List Char) (fields : List (List Char))
    (records : List (List (List Char))) (b : Bool) :
    ∃ b', readOn (⟨.quoted, field, fields, records⟩, b) (cs.flatMap doubled) =
      (⟨.quoted, cs.reverse ++ field, fields, records⟩, b') := by
  induction cs generalizing field b with
  | nil => exact ⟨b, rfl⟩
  | cons c rest ih =>
    obtain ⟨b₁, hfirst⟩ := readOn_doubled c field fields records b
    obtain ⟨b₂, hrest⟩ := ih (c :: field) b₁
    refine ⟨b₂, ?_⟩
    rw [List.flatMap_cons, readOn_append, hfirst, hrest]
    simp

/-- A written field is read, and then a comma or the end of the line can follow. Only where nothing
is written does the reader still stand before the record. -/
theorem readOn_field {field text : List Char} (h : WritesField field text) {mode : Mode}
    (hmode : mode.IsOpen) (fields : List (List Char)) (records : List (List (List Char)))
    (b : Bool) :
    ∃ mode' b', readOn (⟨mode, [], fields, records⟩, b) text =
        (⟨mode', field.reverse, fields, records⟩, b') ∧
      mode' ≠ .quoted ∧ (mode' = .beforeRecord → mode = .beforeRecord ∧ text = []) := by
  cases h with
  | bare h =>
    -- an empty field leaves no trace, so a record of one empty field has to be quoted
    cases field with
    | nil =>
      refine ⟨mode, b, rfl, ?_, fun heq => ⟨heq, rfl⟩⟩
      rcases hmode with rfl | rfl <;> simp
    | cons c rest =>
      obtain ⟨b₁, hstep⟩ := lineStep_plain (h c List.mem_cons_self)
        (s := ⟨mode, [], fields, records⟩) (Or.inl hmode) b
      obtain ⟨b₂, hrest⟩ := readOn_plain (fun d hd => h d (List.mem_cons_of_mem _ hd)) [c] fields
        records b₁
      refine ⟨.plain, b₂, ?_, by simp, by simp⟩
      rw [readOn, List.foldl_cons, hstep, List.reverse_cons]
      exact hrest
  | quoted =>
    obtain ⟨b₁, hopen⟩ := lineStep_opening_quote (s := ⟨mode, [], fields, records⟩) hmode b
    obtain ⟨b₂, hinside⟩ := readOn_quoted field [] fields records b₁
    refine ⟨.behindQuote, false, ?_, by simp, by simp⟩
    rw [readOn, List.foldl_cons, hopen, ← readOn, readOn_append]
    dsimp only
    rw [hinside, List.append_nil]
    rfl

/-- A written record is read but for its end: the last field is still open. -/
theorem readOn_record {record : List (List Char)} {text : List Char} (h : WritesRecord record text)
    {mode : Mode} (hmode : mode.IsOpen) (fields : List (List Char))
    (records : List (List (List Char))) (b : Bool) :
    ∃ mode' last fields' b', readOn (⟨mode, [], fields, records⟩, b) text =
        (⟨mode', last, fields', records⟩, b') ∧
      (last.reverse :: fields').reverse = fields.reverse ++ record ∧
      mode' ≠ .quoted ∧ (mode' = .beforeRecord → mode = .beforeRecord ∧ text = []) := by
  -- the fields before the open one are generalized, as each comma adds one to them
  induction h generalizing mode fields b with
  | one h =>
    obtain ⟨mode', b', hread, hquoted, hrecord⟩ := readOn_field h hmode fields records b
    exact ⟨mode', _, fields, b', hread, by simp, hquoted, hrecord⟩
  | @more field text rest behind h hrest ih =>
    obtain ⟨mode₁, b₁, hread, hquoted, -⟩ := readOn_field h hmode fields records b
    obtain ⟨mode', last, fields', b', hbehind, hfields, hquoted', hrecord⟩ :=
      ih (Or.inr rfl) (field :: fields) false
    refine ⟨mode', last, fields', b', ?_, ?_, hquoted', fun heq => ?_⟩
    · rw [readOn_append, hread, readOn, List.foldl_cons, lineStep_comma hquoted, State.endField,
        List.reverse_reverse]
      exact hbehind
    · simpa using hfields
    · cases (hrecord heq).1

theorem readOn_line {record : List (List Char)} {text ending : List Char}
    (h : WritesRecord record text) (hne : text ≠ []) (hending : IsLineEnd ending)
    (records : List (List (List Char))) :
    readOn (⟨.beforeRecord, [], [], records⟩, false) (text ++ ending) =
      (⟨.beforeRecord, [], [], record :: records⟩, false) := by
  obtain ⟨mode, last, fields, b, hread, hfields, hquoted, hrecord⟩ :=
    readOn_record h (Or.inl rfl) [] records false
  have hopen : mode ≠ .beforeRecord := fun heq => hne (hrecord heq).2
  have hended : State.endRecord ⟨mode, last, fields, records⟩ =
      ⟨.beforeRecord, [], [], record :: records⟩ := by
    rw [State.endRecord, hfields]
    rfl
  rw [readOn_append, hread]
  cases hending with
  | feed =>
    rw [readOn, List.foldl_cons, lineStep_end (Or.inl rfl) hquoted hopen, hended]
    rfl
  | both =>
    -- the feed behind the carriage return belongs to the same end
    rw [readOn, List.foldl_cons, lineStep_end (Or.inr rfl) hquoted hopen, hended]
    rfl

theorem readOn_blank {ending : List Char} (hending : IsLineEnd ending)
    (records : List (List (List Char))) :
    readOn (⟨.beforeRecord, [], [], records⟩, false) ending =
      (⟨.beforeRecord, [], [], [] :: records⟩, false) := by
  cases hending <;> rfl

theorem finish_readOn {rows : List (List (List Char))} {text : List Char} (h : Writes rows text)
    (records : List (List (List Char))) :
    finish (readOn (⟨.beforeRecord, [], [], records⟩, false) text).1 = records.reverse ++ rows := by
  -- between two lines the reader holds nothing but the rows before, which are generalized
  induction h generalizing records with
  | none => simp [readOn, finish]
  | @last record text h hne =>
    -- the end of the text ends the record, too
    obtain ⟨mode, last, fields, b, hread, hfields, hquoted, hrecord⟩ :=
      readOn_record h (Or.inl rfl) [] records false
    have hopen : mode ≠ .beforeRecord := fun heq => hne (hrecord heq).2
    have hended : finish ⟨mode, last, fields, records⟩ =
        (State.endRecord ⟨mode, last, fields, records⟩).records.reverse := by
      cases mode <;> first | rfl | exact absurd rfl hopen
    rw [hread, hended, State.endRecord, hfields]
    simp
  | line h hne hending hrest ih =>
    rw [readOn_append, readOn_line h hne hending, ih]
    simp
  | blank hending hrest ih =>
    rw [readOn_append, readOn_blank hending, ih]
    simp

/-- **Reading back**: the lines of a written sheet are its rows. -/
theorem lines_of_writes {rows : List (List (List Char))} {text : List Char}
    (h : Writes rows text) : lines .chars text = rows :=
  finish_readOn h []

/-- A text writes the rows, perhaps behind a byte order mark. -/
def TextWrites (rows : List (List String)) (s : String) : Prop :=
  Writes (rows.map (·.map String.toList)) (withoutMark [Char.ofNat 0xFEFF] s.toList)

/-- The rows as a text in which all fields are between quotes. -/
def quotedText (rows : List (List String)) : String :=
  String.ofList (quotedSheet (rows.map (·.map String.toList)))

theorem withoutMark_of_head {mark : Char} {text : List Char} (h : text.head? ≠ some mark) :
    withoutMark [mark] text = text := by
  cases text with
  | nil => rfl
  | cons c rest =>
    have hne : ¬ mark = c := fun heq => h (by simp [heq])
    simp [withoutMark, List.isPrefixOf?, hne]

/-- Such a text begins with a quote or a line break, and so with no mark. -/
theorem textWrites_quotedText (rows : List (List String)) : TextWrites rows (quotedText rows) := by
  rw [TextWrites, quotedText, String.toList_ofList, withoutMark_of_head]
  · exact writes_quotedSheet _
  · rcases rows with - | ⟨- | ⟨field, - | ⟨next, rest⟩⟩, rows⟩ <;>
      simp [quotedSheet, quotedRecord, quotedField]

theorem linesOfText_of_textWrites {rows : List (List String)} {s : String} (h : TextWrites rows s) :
    linesOfText s = rows := by
  have hsame : ∀ row : List String, (row.map String.toList).map String.ofList = row := by
    simp [Function.comp_def]
  rw [linesOfText, lines_of_writes h, List.map_map]
  simp [Function.comp_def, hsame]

/-- Rows that all have fields are read back as they were written. -/
theorem ofText_of_textWrites {rows : List (List String)} {s : String} (h : TextWrites rows s)
    (hne : ∀ row ∈ rows, row ≠ []) : ofText s = rows := by
  rw [ofText_eq_filter_lines, linesOfText_of_textWrites h, List.filter_eq_self]
  simpa using hne

end MetadataCatalog.Csv
