import MetadataCatalog.Proofs.Schema.Joining

/-!
# Attaching lists of values by key

What becomes of any records, wherever they come from, when the lists of values of any sheet are
attached to them. A record joins the last row that has its key, and nothing in it changes but the
one entry that takes the list; a record without such a row is a stray and ends the run. The step is
`attachOne_outcome`, the runs without a stray and up to the first one are `attach_of_no_strays` and
`attach_of_firstStray`, and `attach_by_key` says what the whole run gives.
-/

namespace MetadataCatalog

/-! ## §1 Setting one entry -/

namespace Json.Entries

/-- The second object is the first with a value set under a name, and nothing else touched. -/
inductive Sets (name : String) (value : Json) : Entries → Entries → Prop where
  /-- The value takes the place of the first one under that name. -/
  | replaced {front back : Entries} {old : Json} (h : name ∉ front.names) :
      Sets name value (front ++ (name, old) :: back) (front ++ (name, value) :: back)
  /-- Under a new name the value goes to the end. -/
  | added {entries : Entries} (h : name ∉ entries.names) :
      Sets name value entries (entries ++ [(name, value)])

variable {name : String} {value : Json}

theorem put_append_cons {front back : Entries} {old : Json} (h : name ∉ front.names) :
    put name value (front ++ (name, old) :: back) = front ++ (name, value) :: back := by
  induction front with
  | nil => simp [put]
  | cons e rest ih =>
    obtain ⟨k, v⟩ := e
    simp only [names, List.map_cons, List.mem_cons, not_or] at h
    simp [put, Ne.symm h.1, ih h.2]

theorem sets_put (entries : Entries) : Sets name value entries (entries.put name value) := by
  induction entries with
  | nil => exact .added List.not_mem_nil
  | cons e rest ih =>
    obtain ⟨k, v⟩ := e
    by_cases hk : k = name
    · subst hk
      rw [put, if_pos rfl]
      exact @Sets.replaced k value [] rest v List.not_mem_nil
    · -- the name is looked for further back, behind one more entry of another name
      rw [put, if_neg hk]
      have hfirst : ∀ {entries : Entries}, name ∉ entries.names →
          name ∉ names ((k, v) :: entries) := by
        intro entries h
        simp only [names, List.map_cons, List.mem_cons, not_or]
        exact ⟨Ne.symm hk, h⟩
      generalize put name value rest = result at ih
      cases ih with
      | @replaced front back old h =>
        exact @Sets.replaced name value ((k, v) :: front) back old (hfirst h)
      | added h => exact .added (hfirst h)

/-- Putting is the one way of setting a value. -/
theorem sets_iff {entries result : Entries} :
    Sets name value entries result ↔ result = entries.put name value := by
  constructor
  · intro h
    cases h with
    | replaced h => exact (put_append_cons h).symm
    | added h => exact (put_of_not_mem h).symm
  · rintro rfl
    exact sets_put entries

end Json.Entries

namespace ValueLists

/-! ## §2 The row of a key -/

/-- The row is the last one of the sheet that has the key. -/
def LastWith (s : CleanSheet) (key : String) (row : CleanRow) : Prop :=
  row.key = key ∧ ∃ above below, s.rows = above ++ row :: below ∧ ∀ r ∈ below, r.key ≠ key

theorem rowOf?_eq_some_iff {s : CleanSheet} {key : String} {row : CleanRow} :
    rowOf? s key = some row ↔ LastWith s key row := by
  rw [rowOf?, List.find?_eq_some_iff_append, LastWith, decide_eq_true_iff]
  -- what is passed over in the search from the end stands below the row
  constructor
  · rintro ⟨hkey, passed, rest, hrows, hpassed⟩
    refine ⟨hkey, rest.reverse, passed.reverse, ?_, fun r hr => ?_⟩
    · rw [← List.reverse_reverse s.rows, hrows]
      simp
    · simpa using hpassed r (List.mem_reverse.mp hr)
  · rintro ⟨hkey, above, below, hrows, hbelow⟩
    refine ⟨hkey, below.reverse, above.reverse, ?_, fun r hr => ?_⟩
    · rw [hrows]
      simp
    · simpa using hbelow r (List.mem_reverse.mp hr)

theorem rowOf?_eq_none_iff {s : CleanSheet} {key : String} :
    rowOf? s key = none ↔ ∀ row ∈ s.rows, row.key ≠ key := by
  rw [rowOf?, List.find?_eq_none]
  simp only [List.mem_reverse, decide_eq_true_eq, ne_eq]

/-! ## §3 One record -/

/-- Why a record is a stray. -/
inductive Strays (s : CleanSheet) (layout : Layout) (record : Record) : RowDefect → Prop where
  /-- It has no text under the name of the key. -/
  | noKey (h : ∀ key, record.get? layout.keyField ≠ some (.text key)) :
      Strays s layout record .noKey
  /-- It has a text there, but one that is the key of no row. -/
  | unknownKey {key : String} (hkey : record.get? layout.keyField = some (.text key))
      (h : ∀ row ∈ s.rows, row.key ≠ key) : Strays s layout record (.unknownKey key)

/-- What a row gives for the values, its list beginning in the given column. -/
inductive Gives (cells : List Cell) (column : Nat) : Json → Prop where
  /-- The empty choice, and then all that is filled in from that column on. -/
  | list (h : (cellAt cells column).isSome) :
      Gives cells column (.list (.text "" :: ((cells.drop column).filterMap id).map .text))
  /-- A row that leaves the column empty gives a null. -/
  | null (h : cellAt cells column = none) : Gives cells column .null

theorem gives_ofCells (cells : List Cell) (column : Nat) :
    Gives cells column (asJson (ofCells cells column)) := by
  cases hflag : cellAt cells column with
  | none =>
    rw [ofCells, hflag]
    exact .null hflag
  | some flag =>
    rw [ofCells, hflag]
    exact .list (by rw [hflag, Option.isSome_some])

/-- The second record is the first with the values that the last row with its key gives. -/
def JoinsTo (s : CleanSheet) (layout : Layout) (record attached : Record) : Prop :=
  ∃ key row values, record.get? layout.keyField = some (.text key) ∧ LastWith s key row ∧
    Gives row.cells layout.valuesColumn values ∧
    Json.Entries.Sets layout.valuesField values record attached

/-- The record with its list of values, and a stray as it is. -/
def joined (s : CleanSheet) (layout : Layout) (record : Record) : Record :=
  match ((record.get? layout.keyField).bind Json.text?).bind (rowOf? s) with
  | some row => record.put layout.valuesField (asJson (ofCells row.cells layout.valuesColumn))
  | none => record

section Step

variable {s : CleanSheet} {layout : Layout} {record : Record} {defect : RowDefect}

theorem text?_eq_some_iff {value : Option Json} {text : String} :
    value.bind Json.text? = some text ↔ value = some (.text text) := by
  cases value with
  | none => simp
  | some v => cases v <;> simp [Json.text?]

theorem attachOne_of_strays (h : Strays s layout record defect) (position : Nat) :
    attachOne s layout position record =
      .error (.malformedRow (rowNumberAt s position) defect) := by
  cases h with
  | noKey h =>
    have hnone : (record.get? layout.keyField).bind Json.text? = none := by
      apply Option.eq_none_iff_forall_ne_some.mpr
      intro key hkey
      exact h key (text?_eq_some_iff.mp hkey)
    rw [attachOne, hnone]
  | unknownKey hkey h =>
    rw [attachOne, text?_eq_some_iff.mpr hkey]
    simp only [rowOf?_eq_none_iff.mpr h]

/-- **One record**: it is a stray, or it joins a row, at whatever position it stands. -/
theorem attachOne_outcome (s : CleanSheet) (layout : Layout) (record : Record) :
    (∃ defect, Strays s layout record defect) ∨
      JoinsTo s layout record (joined s layout record) ∧
        ∀ position, attachOne s layout position record = .ok (joined s layout record) := by
  cases hkey : (record.get? layout.keyField).bind Json.text? with
  | none =>
    refine .inl ⟨_, .noKey fun key h => ?_⟩
    rw [text?_eq_some_iff.mpr h] at hkey
    cases hkey
  | some key =>
    cases hrow : rowOf? s key with
    | none => exact .inl ⟨_, .unknownKey (text?_eq_some_iff.mp hkey) (rowOf?_eq_none_iff.mp hrow)⟩
    | some row =>
      have hjoined : joined s layout record =
          record.put layout.valuesField (asJson (ofCells row.cells layout.valuesColumn)) := by
        rw [joined, hkey, Option.bind_some, hrow]
      refine .inr ⟨⟨key, row, _, text?_eq_some_iff.mp hkey, rowOf?_eq_some_iff.mp hrow,
        gives_ofCells row.cells layout.valuesColumn, Json.Entries.sets_iff.mpr hjoined⟩, ?_⟩
      intro position
      rw [attachOne, hkey]
      simp only [hrow, hjoined]

end Step

/-! ## §4 All records -/

section Run

variable {s : CleanSheet} {layout : Layout} {records : List Record}

/-- Where there are no strays, each record joins its row, and does so wherever it stands. -/
theorem attachOne_of_no_strays
    (h : ∀ record ∈ records, ∀ defect, ¬ Strays s layout record defect) :
    ∀ record ∈ records, JoinsTo s layout record (joined s layout record) ∧
      ∀ position, attachOne s layout position record = .ok (joined s layout record) := by
  intro record hrecord
  rcases attachOne_outcome s layout record with ⟨defect, hstray⟩ | hjoined
  · exact absurd hstray (h record hrecord defect)
  · exact hjoined

theorem attach_of_no_strays (h : ∀ record ∈ records, ∀ defect, ¬ Strays s layout record defect) :
    attach s layout records = (records.map (joined s layout), none) := by
  have hstep := fun record hrecord => (attachOne_of_no_strays h record hrecord).2
  rw [← attach_map hstep, List.map_id']

/-- The record at position `p` is a stray, and none in front of it is. -/
def FirstStray (s : CleanSheet) (layout : Layout) (records : List Record) (p : Nat)
    (defect : RowDefect) : Prop :=
  (∃ record, records[p]? = some record ∧ Strays s layout record defect) ∧
    ∀ record ∈ records.take p, ∀ defect, ¬ Strays s layout record defect

theorem attach_of_firstStray {p : Nat} {defect : RowDefect}
    (h : FirstStray s layout records p defect) :
    attach s layout records = ((records.take p).map (joined s layout) ++ records.drop p,
      some (.malformedRow (rowNumberAt s p) defect)) := by
  obtain ⟨⟨record, hrecord, hstray⟩, hfront⟩ := h
  obtain ⟨hlt, hget⟩ := List.getElem?_eq_some_iff.mp hrecord
  have hdrop : records.drop p = record :: records.drop (p + 1) := by
    rw [List.drop_eq_getElem_cons hlt, hget]
  have hlength : 0 + (records.take p).length = p := by
    rw [List.length_take]
    omega
  -- the run goes through the records in front of the stray and ends at it
  have hstep := fun record hrecord => (attachOne_of_no_strays hfront record hrecord).2
  have hrun := attachFrom_map_append hstep (records.drop p) 0
  rw [List.map_id', List.take_append_drop, hlength, hdrop, attachFrom,
    attachOne_of_strays hstray] at hrun
  rw [attach, hrun, hdrop]

end Run

/-- **Attaching by key**: where no record is a stray, every record joins the last row that has its
own key. What it becomes does not depend on its position, so other orders of the records give the
results in that order. Where there is a stray, the fault names the row of the sheet that stands at
the position of the first one, the records in front of it are joined, and from there on all stay as
they are. -/
theorem attach_by_key (s : CleanSheet) (layout : Layout) (records : List Record) :
    ((∀ record ∈ records, ∀ defect, ¬ Strays s layout record defect) →
      attach s layout records = (records.map (joined s layout), none) ∧
      (∀ record ∈ records, JoinsTo s layout record (joined s layout record)) ∧
      ∀ records', records'.Perm records →
        attach s layout records' = (records'.map (joined s layout), none) ∧
        (attach s layout records').1.Perm (attach s layout records).1) ∧
    ∀ p defect, FirstStray s layout records p defect →
      attach s layout records = ((records.take p).map (joined s layout) ++ records.drop p,
        some (.malformedRow (rowNumberAt s p) defect)) ∧
      ∀ record ∈ records.take p, JoinsTo s layout record (joined s layout record) := by
  constructor
  · intro h
    refine ⟨attach_of_no_strays h,
      fun record hrecord => (attachOne_of_no_strays h record hrecord).1, fun records' hperm => ?_⟩
    have h' : ∀ record ∈ records', ∀ defect, ¬ Strays s layout record defect :=
      fun record hrecord => h record (hperm.mem_iff.mp hrecord)
    refine ⟨attach_of_no_strays h', ?_⟩
    rw [attach_of_no_strays h', attach_of_no_strays h]
    exact hperm.map (joined s layout)
  · intro p defect h
    exact ⟨attach_of_firstStray h,
      fun record hrecord => (attachOne_of_no_strays h.2 record hrecord).1⟩

/-- A sheet in which one key stands twice. -/
def colorSheet : CleanSheet where
  headers := ["key", "values", "more values"]
  keyColumn := 0
  rows := [⟨3, "color", [some "color", some "red", none]⟩, ⟨4, "size", [some "size", none, none]⟩,
    ⟨6, "color", [some "color", some "blue", some "green"]⟩]

/-- A layout of that sheet. -/
def colorLayout : Layout := ⟨"key", [], 1, "values"⟩

/-- The record of the field that lists values. -/
def colorRecord : Record := [("key", .text "color"), ("values", .boolean true), ("unit", .null)]

/-- A record of the field that lists none. -/
def sizeRecord : Record := [("unit", .text "mm"), ("key", .text "size")]

/-- A record of no field. -/
def ghostRecord : Record := [("key", .text "ghost")]

/-- Records in another order than the rows are joined; behind a stray they are left as they are. -/
theorem attach_by_key_colors :
    (∀ record ∈ [sizeRecord, colorRecord], ∀ defect,
      ¬ Strays colorSheet colorLayout record defect) ∧
    attach colorSheet colorLayout [sizeRecord, colorRecord] =
      ([[("unit", .text "mm"), ("key", .text "size"), ("values", .null)],
        [("key", .text "color"), ("values", .list [.text "", .text "blue", .text "green"]),
          ("unit", .null)]], none) ∧
    FirstStray colorSheet colorLayout [colorRecord, ghostRecord, sizeRecord] 1
      (.unknownKey "ghost") ∧
    attach colorSheet colorLayout [colorRecord, ghostRecord, sizeRecord] =
      ([[("key", .text "color"), ("values", .list [.text "", .text "blue", .text "green"]),
          ("unit", .null)], ghostRecord, sizeRecord],
        some (.malformedRow 4 (.unknownKey "ghost"))) := by
  have hrecords : ∀ record ∈ [sizeRecord, colorRecord], ∀ defect,
      ¬ Strays colorSheet colorLayout record defect := by
    intro record hrecord defect hstray
    have hstep := attachOne_of_strays hstray 0
    simp only [List.mem_cons, List.not_mem_nil, or_false] at hrecord
    -- each of the two records is joined
    rcases hrecord with rfl | rfl <;> cases hstep
  have hghost : FirstStray colorSheet colorLayout [colorRecord, ghostRecord, sizeRecord] 1
      (.unknownKey "ghost") := by
    refine ⟨⟨ghostRecord, rfl, .unknownKey rfl (by decide)⟩, fun record hrecord => ?_⟩
    apply hrecords
    rw [List.take_one, List.head?_cons, Option.toList_some, List.mem_singleton] at hrecord
    rw [hrecord]
    exact List.mem_cons_of_mem _ List.mem_cons_self
  exact ⟨hrecords, ((attach_by_key _ _ _).1 hrecords).1, hghost,
    ((attach_by_key _ _ _).2 1 _ hghost).1⟩

end ValueLists

end MetadataCatalog
