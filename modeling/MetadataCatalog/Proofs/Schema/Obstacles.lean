import MetadataCatalog.Proofs.Schema.Descriptors

/-!
# What can stand in the way of a schema document

A table and a dictionary fail to give a schema document for one of five reasons, each a condition on
the table and the dictionary alone. `Obstacle` numbers them in the order in which they are noticed,
and the fault that comes out is that of the first one. A record that cannot be joined is not among
them: every record has its key, and every key its row.
-/

namespace MetadataCatalog.Schema

/-! ## §1 The five obstacles -/

/-- The reasons why a table has no schema document, numbered in the order in which they are noticed,
each with its fault. -/
inductive Obstacle (t : Table) (d : Dictionary) : Nat → Fault → Prop where
  /-- The first row of the dictionary is absent or half filled. -/
  | keyEntry (h : ∀ e, ¬ d.Holds Dictionary.keyRow e) :
      Obstacle t d 1 (.missingMapping Dictionary.keyRow d.rows.length)
  /-- No header is that of the key column. -/
  | keyColumn (key : MappingEntry) (hkey : d.Holds Dictionary.keyRow key)
      (h : key.column ∉ t.headers) :
      Obstacle t d 2 (.refused (.keyColumnNotFound key.column t.headers))
  /-- Data row `i` is the first that repeats the key of a surviving row. -/
  | repeatedKey (key : MappingEntry) (c i : Nat) (text : String)
      (hkey : d.Holds Dictionary.keyRow key) (hc : LeftmostAt t.headers key.column c)
      (hi : CleanSheet.RepeatsKey t c i) (hfirst : ∀ j < i, ¬ CleanSheet.RepeatsKey t c j)
      (htext : CleanSheet.keyAt t c i = some text) :
      Obstacle t d 3 (.malformedRow (t.sheetRow i) (.duplicateKey text))
  /-- The eighth row of the dictionary is absent or half filled. -/
  | valuesEntry (h : ∀ e, ¬ d.Holds Dictionary.valuesRow e) :
      Obstacle t d 4 (.missingMapping Dictionary.valuesRow d.rows.length)
  /-- No header is that of the values column, once the key column has its canonical name. -/
  | valuesColumn (key values : MappingEntry) (c : Nat) (hkey : d.Holds Dictionary.keyRow key)
      (hc : LeftmostAt t.headers key.column c) (hvalues : d.Holds Dictionary.valuesRow values)
      (h : values.column ∉ t.headers.set c key.canonical) :
      Obstacle t d 5
        (.refused (.valuesColumnNotFound values.column (t.headers.set c key.canonical)))

namespace Obstacle

variable {t : Table} {d : Dictionary} {key values : MappingEntry} {c : Nat} {f g : Fault}

/-- An obstacle has one fault. -/
theorem fault_unique {n : Nat} (h : Obstacle t d n f) (h' : Obstacle t d n g) : f = g := by
  cases h with
  | keyEntry h => cases h' with | keyEntry h' => rfl
  | keyColumn key hkey h =>
    cases h' with
    | keyColumn key' hkey' h' => rw [hkey.unique hkey']
  | repeatedKey key c i text hkey hc hi hfirst htext =>
    cases h' with
    | repeatedKey key' c' i' text' hkey' hc' hi' hfirst' htext' =>
      obtain rfl := hkey.unique hkey'
      obtain rfl := hc.unique hc'
      -- each is the first row that repeats a key
      have hrow : i = i' := by
        rcases Nat.lt_trichotomy i i' with hlt | heq | hgt
        · exact absurd hi (hfirst' i hlt)
        · exact heq
        · exact absurd hi' (hfirst i' hgt)
      subst hrow
      rw [htext] at htext'
      rw [Option.some.inj htext']
  | valuesEntry h => cases h' with | valuesEntry h' => rfl
  | valuesColumn key values c hkey hc hvalues h =>
    cases h' with
    | valuesColumn key' values' c' hkey' hc' hvalues' h' =>
      obtain rfl := hkey.unique hkey'
      obtain rfl := hc.unique hc'
      rw [hvalues.unique hvalues']

/-! ## §2 Obstacles that are not there -/

theorem le_five {n : Nat} (h : Obstacle t d n f) : n ≤ 5 := by
  cases h <;> decide

theorem not_zero : ¬ Obstacle t d 0 f := by
  intro h
  cases h

theorem not_keyEntry (hkey : d.Holds Dictionary.keyRow key) : ¬ Obstacle t d 1 f := by
  intro h
  cases h with
  | keyEntry h => exact h key hkey

theorem not_keyColumn (hkey : d.Holds Dictionary.keyRow key)
    (hc : LeftmostAt t.headers key.column c) : ¬ Obstacle t d 2 f := by
  intro h
  cases h with
  | keyColumn key' hkey' h =>
    obtain rfl := hkey.unique hkey'
    exact h hc.mem

theorem not_repeatedKey (hkey : d.Holds Dictionary.keyRow key)
    (hc : LeftmostAt t.headers key.column c)
    (hnone : CleanSheet.firstRepeat? [] ((CleanSheet.keyedRows t c).drop 1) = none) :
    ¬ Obstacle t d 3 f := by
  intro h
  cases h with
  | repeatedKey key' c' i text hkey' hc' hi hfirst htext =>
    obtain rfl := hkey.unique hkey'
    obtain rfl := hc.unique hc'
    exact CleanSheet.not_repeatsKey_of_firstRepeat? hnone i hi

theorem not_valuesEntry (hvalues : d.Holds Dictionary.valuesRow values) :
    ¬ Obstacle t d 4 f := by
  intro h
  cases h with
  | valuesEntry h => exact h values hvalues

theorem not_valuesColumn (hkey : d.Holds Dictionary.keyRow key)
    (hc : LeftmostAt t.headers key.column c) (hvalues : d.Holds Dictionary.valuesRow values)
    (hmem : values.column ∈ t.headers.set c key.canonical) : ¬ Obstacle t d 5 f := by
  intro h
  cases h with
  | valuesColumn key' values' c' hkey' hc' hvalues' h =>
    obtain rfl := hkey.unique hkey'
    obtain rfl := hc.unique hc'
    obtain rfl := hvalues.unique hvalues'
    exact h hmem

end Obstacle

/-- Obstacle `n` is there with fault `f`, and none before it is. -/
def FirstObstacle (t : Table) (d : Dictionary) (n : Nat) (f : Fault) : Prop :=
  Obstacle t d n f ∧ ∀ m < n, ∀ g, ¬ Obstacle t d m g

theorem FirstObstacle.fault_unique {t : Table} {d : Dictionary} {m n : Nat} {f g : Fault}
    (h : FirstObstacle t d m f) (h' : FirstObstacle t d n g) : f = g := by
  rcases Nat.lt_trichotomy m n with hlt | heq | hgt
  · exact absurd h.1 (h'.2 m hlt f)
  · subst heq
    exact h.1.fault_unique h'.1
  · exact absurd h'.1 (h.2 n hgt g)

/-! ## §3 The outcome -/

section Stages

variable {t : Table} {d : Dictionary}

theorem descriptors_of_ofTable_error {f : Fault} (h : CleanSheet.ofTable t d = .error f) :
    descriptors t d = .error f := by
  rw [descriptors, h]
  rfl

theorem descriptors_of_resolve_error {s : CleanSheet} {f : Fault}
    (hs : CleanSheet.ofTable t d = .ok s) (h : Layout.resolve s d = .error f) :
    descriptors t d = .error f := by
  rw [descriptors, hs]
  simp only [bind, Except.bind, h]

/-- When the sheet is clean, only the values row and its column are left to stand in the way. -/
theorem outcome_of_cleaned {key : MappingEntry} {s : CleanSheet}
    (hs : CleanSheet.Cleaned t d key s) :
    (∃ n f, descriptors t d = .error f ∧ FirstObstacle t d n f) ∨
      ((∃ document, descriptors t d = .ok document) ∧ ∀ n f, ¬ Obstacle t d n f) := by
  have hok := CleanSheet.ofTable_eq_ok_iff.mpr ⟨key, hs⟩
  have hnone : CleanSheet.firstRepeat? [] ((CleanSheet.keyedRows t s.keyColumn).drop 1) = none :=
    hs.rows ▸ hs.distinct
  -- a clean sheet has the first three checks behind it
  have hclean : ∀ m < 4, ∀ g, ¬ Obstacle t d m g := by
    intro m hm g
    obtain rfl | rfl | rfl | rfl : m = 0 ∨ m = 1 ∨ m = 2 ∨ m = 3 := by omega
    · exact Obstacle.not_zero
    · exact Obstacle.not_keyEntry hs.entry
    · exact Obstacle.not_keyColumn hs.entry hs.column
    · exact Obstacle.not_repeatedKey hs.entry hs.column hnone
  by_cases hentry : ∃ values, d.Holds Dictionary.valuesRow values
  · obtain ⟨values, hvalues⟩ := hentry
    -- with the eighth entry only its column can be missing
    have hentered : ∀ m < 5, ∀ g, ¬ Obstacle t d m g := by
      intro m hm g
      obtain hlt | rfl : m < 4 ∨ m = 4 := by omega
      · exact hclean m hlt g
      · exact Obstacle.not_valuesEntry hvalues
    by_cases hmem : values.column ∈ s.headers
    · obtain ⟨v, hv⟩ := exists_leftmostAt hmem
      obtain ⟨values', hl⟩ :=
        Layout.resolve_eq_ok_iff.mp (Layout.resolve_of_leftmostAt hvalues hv)
      refine Or.inr ⟨⟨_, descriptors_of_resolved hs hl⟩, fun n f hn => ?_⟩
      have hle := hn.le_five
      obtain hlt | rfl : n < 5 ∨ n = 5 := by omega
      · exact hentered n hlt f hn
      · exact Obstacle.not_valuesColumn hs.entry hs.column hvalues (hs.headers ▸ hmem) hn
    · refine Or.inl ⟨5, _, descriptors_of_resolve_error hok
        (Layout.resolve_of_not_mem hvalues hmem), ?_, hentered⟩
      rw [hs.headers] at hmem ⊢
      exact .valuesColumn key values _ hs.entry hs.column hvalues hmem
  · have hmissing := not_exists.mp hentry
    exact Or.inl ⟨4, _, descriptors_of_resolve_error hok (Layout.resolve_of_not_holds hmissing),
      .valuesEntry hmissing, hclean⟩

/-- A schema document fails with the fault of the first obstacle, or there is none and it is
made. -/
theorem descriptors_outcome (t : Table) (d : Dictionary) :
    (∃ n f, descriptors t d = .error f ∧ FirstObstacle t d n f) ∨
      ((∃ document, descriptors t d = .ok document) ∧ ∀ n f, ¬ Obstacle t d n f) := by
  by_cases hentry : ∃ key, d.Holds Dictionary.keyRow key
  · obtain ⟨key, hkey⟩ := hentry
    by_cases hmem : key.column ∈ t.headers
    · obtain ⟨c, hc⟩ := exists_leftmostAt hmem
      have hofTable := CleanSheet.ofTable_of_leftmostAt hkey hc
      -- the table is cleaned unless a key is repeated
      cases hrepeat : CleanSheet.firstRepeat? [] ((CleanSheet.keyedRows t c).drop 1) with
      | none =>
        rw [hrepeat] at hofTable
        obtain ⟨key', hs⟩ := CleanSheet.ofTable_eq_ok_iff.mp hofTable
        exact outcome_of_cleaned hs
      | some r =>
        rw [hrepeat] at hofTable
        obtain ⟨i, hi, hrepeats, hfirst⟩ := CleanSheet.repeatsKey_of_firstRepeat? hrepeat
        refine Or.inl ⟨3, _, descriptors_of_ofTable_error hofTable, ?_, fun m hm g => ?_⟩
        · rw [hi.row]
          exact .repeatedKey key c i r.key hkey hc hrepeats hfirst hi.keyAt_eq
        · obtain rfl | rfl | rfl : m = 0 ∨ m = 1 ∨ m = 2 := by omega
          · exact Obstacle.not_zero
          · exact Obstacle.not_keyEntry hkey
          · exact Obstacle.not_keyColumn hkey hc
    · refine Or.inl ⟨2, _, descriptors_of_ofTable_error
        (CleanSheet.ofTable_of_not_mem hkey hmem), .keyColumn key hkey hmem, fun m hm g => ?_⟩
      obtain rfl | rfl : m = 0 ∨ m = 1 := by omega
      · exact Obstacle.not_zero
      · exact Obstacle.not_keyEntry hkey
  · have hmissing := not_exists.mp hentry
    refine Or.inl ⟨1, _, descriptors_of_ofTable_error (CleanSheet.ofTable_of_not_holds hmissing),
      .keyEntry hmissing, fun m hm g => ?_⟩
    obtain rfl : m = 0 := by omega
    exact Obstacle.not_zero

end Stages

/-- **Failures**: there is no schema document exactly when one of the five obstacles is there, and
the fault is that of the first. In particular no record is ever without its key or its row. -/
theorem descriptors_error_iff (t : Table) (d : Dictionary) :
    ((∃ f, descriptors t d = .error f) ↔ ∃ n f, Obstacle t d n f) ∧
      (∀ f, descriptors t d = .error f ↔ ∃ n, FirstObstacle t d n f) ∧
      ∀ row key, descriptors t d ≠ .error (.malformedRow row .noKey) ∧
        descriptors t d ≠ .error (.malformedRow row (.unknownKey key)) := by
  have hfirst : ∀ f, descriptors t d = .error f ↔ ∃ n, FirstObstacle t d n f := by
    intro f
    -- the first obstacle is only one, and where there is none there is a document
    rcases descriptors_outcome t d with ⟨n, g, herror, hn⟩ | ⟨⟨document, hok⟩, hclear⟩
    · constructor
      · intro h
        rw [herror] at h
        exact ⟨n, Except.error.inj h ▸ hn⟩
      · rintro ⟨m, hm⟩
        rw [herror, hn.fault_unique hm]
    · constructor
      · intro h
        rw [hok] at h
        cases h
      · rintro ⟨m, hm, -⟩
        exact absurd hm (hclear m f)
  refine ⟨?_, hfirst, fun row key => ⟨fun h => ?_, fun h => ?_⟩⟩
  · rcases descriptors_outcome t d with ⟨n, g, herror, hn⟩ | ⟨⟨document, hok⟩, hclear⟩
    · exact ⟨fun _ => ⟨n, g, hn.1⟩, fun _ => ⟨g, herror⟩⟩
    · constructor
      · rintro ⟨f, hf⟩
        rw [hok] at hf
        cases hf
      · rintro ⟨n, f, hn⟩
        exact absurd hn (hclear n f)
  · obtain ⟨n, hn, -⟩ := (hfirst _).mp h
    cases hn
  · obtain ⟨n, hn, -⟩ := (hfirst _).mp h
    cases hn

end MetadataCatalog.Schema
