import MetadataCatalog.Proofs.Json.ReadingBack
import MetadataCatalog.Proofs.Schema.KeyTemplates
import MetadataCatalog.Proofs.Storage.Saving

/-!
# Documents

The documents that are made of a schema sheet are plain JSON values: texts and lists of texts under
different names. So the text of a document has one value, which is the document, and a saved
document is the one that is read from its file (`Schema.render_reads_back`).
-/

namespace MetadataCatalog

/-! ## §1 Plain values -/

namespace Json

/-- Pruning a plain value leaves a plain value. -/
theorem Plain.prune {n : Nat} {v : Json} (h : v.Plain n) : v.prune.Plain n := by
  induction h with
  | null => exact .null
  | boolean b => exact .boolean b
  | integer h => exact .integer h
  | text s => exact .text s
  | list _ ih =>
    rw [Json.prune, pruneItems_eq]
    refine .list fun v hv => ?_
    obtain ⟨w, hw, rfl⟩ := List.mem_map.mp hv
    exact ih w (List.mem_of_mem_filter hw)
  | @object _ entries hnames _ ih =>
    rw [Json.prune, pruneEntries_eq]
    refine .object ?_ fun e he => ?_
    · -- the names that are left stand in the same order
      rw [Entries.names, List.map_map]
      exact hnames.sublist (List.filter_sublist.map Prod.fst)
    · obtain ⟨f, hf, rfl⟩ := List.mem_map.mp he
      exact ih f (List.mem_of_mem_filter hf)

/-- Putting a value into an object with different names leaves them different. -/
theorem Entries.names_put_nodup {entries : Entries} (h : entries.names.Nodup) (name : String)
    (value : Json) : (entries.put name value).names.Nodup := by
  by_cases hmem : name ∈ entries.names
  · rwa [names_put_of_mem hmem]
  · rw [put_of_not_mem hmem, names, List.map_append, List.nodup_append]
    refine ⟨h, List.nodup_singleton name, fun other hother last hlast heq => hmem ?_⟩
    have hname : last = name := List.mem_singleton.mp hlast
    rwa [← hname, ← heq]

theorem Entries.mem_put {entries : Entries} {name : String} {value : Json} {e : String × Json}
    (h : e ∈ entries.put name value) : e ∈ entries ∨ e = (name, value) := by
  induction entries with
  | nil => exact .inr (List.mem_singleton.mp h)
  | cons first rest ih =>
    obtain ⟨k, v⟩ := first
    unfold put at h
    split at h
    · rename_i hname
      rcases List.mem_cons.mp h with rfl | h
      · exact .inr (by rw [hname])
      · exact .inl (List.mem_cons_of_mem _ h)
    · rcases List.mem_cons.mp h with rfl | h
      · exact .inl List.mem_cons_self
      · exact (ih h).imp_left (List.mem_cons_of_mem _)

end Json

/-! ## §2 Descriptors and templates -/

namespace ValueLists

theorem plain_asJson (values : Option (List String)) : (asJson values).Plain 1 := by
  cases values with
  | none => exact .null
  | some values =>
    refine .list fun v hv => ?_
    obtain ⟨s, -, rfl⟩ := List.mem_map.mp hv
    exact .text s

/-- A record with its list of values is plain. -/
theorem plain_joinedRow {layout : Layout} (hnames : layout.fieldNames.Nodup) (row : CleanRow) :
    (Json.object (joinedRow layout row)).Plain 2 := by
  have hrecord : ∀ e ∈ Record.ofRow layout row, e.2.Plain 1 := by
    intro e he
    rw [Record.ofRow_eq hnames, List.mem_cons, List.mem_map] at he
    rcases he with rfl | ⟨a, -, rfl⟩
    · exact .text row.key
    · unfold Record.cellValue
      split
      · exact .text _
      · exact .null
  refine .object ?_ fun e he => ?_
  · rw [← Record.names_ofRow hnames row] at hnames
    exact Json.Entries.names_put_nodup hnames _ _
  · rcases Json.Entries.mem_put he with he | he
    · exact hrecord e he
    · rw [he]
      exact plain_asJson _

end ValueLists

namespace Schema

variable {t : Table} {d : Dictionary} {document : Json}

/-- A schema document nests three deep: lists of values in objects in a list. -/
theorem plain_descriptors (h : descriptors t d = .ok document) : document.Plain 3 := by
  obtain ⟨key, values, s, layout, -, hl, rfl⟩ := exists_resolved_of_descriptors h
  refine .list fun v hv => ?_
  obtain ⟨row, -, rfl⟩ := List.mem_map.mp hv
  exact (ValueLists.plain_joinedRow hl.fieldNames_nodup row).prune

theorem plain_keyTemplate (h : keyTemplate t d = .ok document) : document.Plain 1 := by
  cases hs : CleanSheet.ofTable t d with
  | error f =>
    rw [keyTemplate, hs] at h
    cases h
  | ok s =>
    obtain ⟨key, hcleaned⟩ := CleanSheet.ofTable_eq_ok_iff.mp hs
    rw [keyTemplate_of_cleaned hcleaned] at h
    cases h
    refine .object ?_ fun e he => ?_
    · rw [Json.Entries.names, List.map_map]
      exact (List.map_id' s.keys).symm ▸ hcleaned.keys_nodup
    · obtain ⟨k, -, rfl⟩ := List.mem_map.mp he
      exact .null

/-! ## §3 Texts of documents -/

theorem read?_render {v : Json} (h : v.Plain Json.Reader.Rules.document.depthLimit) :
    Json.read? (render v) = some v :=
  Json.Reader.read?_write (Json.Style.blank_indented 4) h (Nat.le_refl _) 0

/-- **Documents read back.** A plain value of at most 127 levels is the one value of its text, so
values of the same text are the same. All documents of schema sheets are such values, and whatever
was saved is read from its file again. -/
theorem render_reads_back :
    (∀ v : Json, v.Plain 127 → Json.read? (render v) = some v) ∧
    (∀ v w : Json, v.Plain 127 → w.Plain 127 → render v = render w → v = w) ∧
    (∀ t d document, descriptors t d = .ok document ∨ keyTemplate t d = .ok document →
      document.Plain 127) ∧
    ∀ (files files' : Files) (path text : String) (v : Json), files.HasWorkingFolder →
      v.Plain 127 → files.save path v = (.ok text, files') →
        ∃ saved, files'.readText path = .ok saved ∧ Json.read? saved = some v := by
  refine ⟨fun v hv => read?_render hv, ?_, ?_, ?_⟩
  · intro v w hv hw hsame
    have hread := read?_render hv
    rw [hsame, read?_render hw] at hread
    exact (Option.some.inj hread).symm
  · rintro t d document (hdocument | hdocument)
    · exact (plain_descriptors hdocument).mono (by decide)
    · exact (plain_keyTemplate hdocument).mono (by decide)
  · intro files files' path text v hwork hv hsave
    obtain ⟨rfl, hwritten⟩ := FileTree.written_of_save hwork hsave
    refine ⟨render v, ?_, read?_render hv⟩
    rw [FileTree.readText, hwritten.read?]
    rfl

/-- A value with the corners of the format: escapes and other characters in texts, the least and the
greatest integer, an empty list. -/
def mixedValue : Json :=
  .list [.object [("a \"name\"\n", .integer (-9223372036854775808)), ("größe", .list [])],
    .integer 18446744073709551615, .text "\x01\\", .null, .boolean true]

theorem plain_mixedValue : mixedValue.Plain 127 := by
  refine .list fun v hv => ?_
  simp only [List.mem_cons, List.not_mem_nil, or_false] at hv
  rcases hv with rfl | rfl | rfl | rfl | rfl
  · refine .object (by decide) fun e he => ?_
    simp only [List.mem_cons, List.not_mem_nil, or_false] at he
    rcases he with rfl | rfl
    · exact .integer (by decide)
    · exact .list fun v hv => absurd hv List.not_mem_nil
  · exact .integer (by decide)
  · exact .text _
  · exact .null
  · exact .boolean true

/-- The value is read from its text, and from a new file in the working directory. -/
theorem render_reads_back_mixed :
    mixedValue.Plain 127 ∧ Json.read? (render mixedValue) = some mixedValue ∧
      (FileTree.bare : Files).HasWorkingFolder ∧
      ∃ files' saved, FileTree.save .bare "x.json" mixedValue = (.ok (render mixedValue), files') ∧
        files'.readText "x.json" = .ok saved ∧ Json.read? saved = some mixedValue := by
  have hplace : (FileTree.bare : Files).placeOf "x.json" = .free FileTree.workingPlace "x.json" :=
    FileTree.resolve_name (by decide) (by decide) (by decide) _ _ _ _
  have hway : (FileTree.bare : Files).makeWay "x.json" = (.ok (), .bare) := rfl
  have hsave : ∃ files', FileTree.save .bare "x.json" mixedValue =
      (.ok (render mixedValue), files') := by
    rw [FileTree.save, hway]
    simp only [FileTree.write?, hplace]
    exact ⟨_, rfl⟩
  have hwork : (FileTree.bare : Files).HasWorkingFolder := ⟨[], rfl⟩
  obtain ⟨files', hsave⟩ := hsave
  obtain ⟨saved, hsaved, hread⟩ :=
    render_reads_back.2.2.2 _ _ _ _ _ hwork plain_mixedValue hsave
  exact ⟨plain_mixedValue, render_reads_back.1 _ plain_mixedValue, hwork, files', saved, hsave,
    hsaved, hread⟩

end Schema

end MetadataCatalog
