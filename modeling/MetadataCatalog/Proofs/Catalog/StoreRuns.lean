import MetadataCatalog.Proofs.Catalog.Connections
import MetadataCatalog.Proofs.Catalog.Databases
import MetadataCatalog.Proofs.Catalog.Searching
import MetadataCatalog.Proofs.Catalog.Spellings

/-!
# Runs on a collection

Records are inserted into a collection one after the other, and then it is searched.

- One insertion puts the record at the end of the collection (`run_insert`).
- A run of insertions: by induction, the collection holds what it held and then the records
  (`run_insertAll`).
- A search after such a run finds the records that match the query, or fails when the expression of
  the query is nested too deep (`search_after_insertAll`). So a query can have too many excluded
  terms: `search_fails_on_many_exclusions`.
-/

namespace MetadataCatalog

/-! ## §1 Insertions -/

namespace Store

/-- Adds records one after the other: their numbers. -/
def insertAll (s : Store) : List CatalogRecord → Action (List Nat)
  | [] => return []
  | r :: rest => do
    let number ← s.insert r
    return number :: (← s.insertAll rest)

variable {s : Store} {w : Workspace} {db : Database} {c : Collection}

/-- **One insertion** puts the record at the end. -/
theorem run_insert (h : s.connection.Serves w db) (hc : db.collection? s.collection = some c)
    (r : CatalogRecord) :
    ∃ w' db', (s.insert r).run w = (.ok (c.length + 1), w') ∧ s.connection.Serves w' db' ∧
      db'.collection? s.collection = some (c ++ [r]) := by
  obtain ⟨w', hrun, hserves, -⟩ := h.run_update true fun db => db.insertRecord s.collection r
  rw [Database.insertRecord_of_collection? hc] at hrun hserves
  exact ⟨w', _, hrun, hserves, Database.collection?_withCollection hc _⟩

/-- **A run of insertions** puts the records at the end in their order, and numbers them on. -/
theorem run_insertAll (h : s.connection.Serves w db) (hc : db.collection? s.collection = some c)
    (records : List CatalogRecord) :
    ∃ w' db', (s.insertAll records).run w =
        (.ok ((List.range records.length).map (c.length + 1 + ·)), w') ∧
      s.connection.Serves w' db' ∧ db'.collection? s.collection = some (c ++ records) := by
  induction records generalizing w db c with
  | nil => exact ⟨w, db, rfl, h, by rw [hc, List.append_nil]⟩
  | cons r rest ih =>
    obtain ⟨w₁, db₁, hfirst, hserves, hone⟩ := run_insert h hc r
    obtain ⟨w₂, db₂, hrest, hserves, hall⟩ := ih hserves hone
    -- the rest is numbered from one further on
    have hnumbers : (c.length + 1) :: (List.range rest.length).map ((c ++ [r]).length + 1 + ·) =
        (List.range (r :: rest).length).map (c.length + 1 + ·) := by
      rw [List.length_cons, List.range_succ_eq_map, List.map_cons, List.map_map]
      simp only [List.length_append, List.length_singleton, Function.comp_def, Nat.add_zero,
        List.cons.injEq, true_and]
      refine List.map_congr_left fun i _ => ?_
      omega
    refine ⟨w₂, db₂, ?_, hserves, by rw [hall, List.append_assoc, List.singleton_append]⟩
    rw [← hnumbers]
    exact (Work.run_bind_ok hfirst _).trans (Work.run_bind_ok hrest _)

/-! ## §2 Searches -/

theorem run_search (h : s.connection.Serves w db) (hc : db.collection? s.collection = some c)
    (hname : CollectionName.service s.collection = .full) (query : String) :
    (s.search query).run w = (c.search query, w) := by
  have hrun := h.run_query fun db => db.search s.collection query
  rwa [Database.search_of_service hc hname] at hrun

/-- How deep the expression of terms is nested: one level for each excluded term, and one for
joining several phrases or words. -/
theorem depth_ofTerms (terms : Terms) :
    (Expression.ofTerms terms).depth =
      (if 2 ≤ (if terms.phrases = [] then terms.words else terms.phrases).length then 1 else 0) +
        terms.excluded.length := by
  rw [Expression.depth, Expression.required_ofTerms, Expression.excluded_ofTerms]

theorem run_search_after_insertAll (h : s.connection.Serves w db)
    (hc : db.collection? s.collection = some c)
    (hname : CollectionName.service s.collection = .full) (records : List CatalogRecord)
    {query : String} {e : Expression} (hnul : Char.ofNat 0 ∉ query.toList)
    (hquery : Expression.ofQuery query = .ok e) :
    ∃ w', (do let _ ← s.insertAll records; s.search query : Action _).run w =
      (if e.depth ≤ Expression.depthLimit then .ok (Collection.select (c ++ records) e)
        else .error .database, w') := by
  obtain ⟨w', db', hinsert, hserves, hrecords⟩ := run_insertAll h hc records
  have hsearch := run_search hserves hrecords hname query
  rw [Collection.search_of_ofQuery hquery hnul] at hsearch
  exact ⟨w', (Work.run_bind_ok hinsert _).trans hsearch⟩

/-- **A search finds the records that match**, each as often as it was inserted and as it was
inserted, when the excluded terms of the query, and one more if several phrases or words are joined,
are at most 256; with more of them it fails. Words beside a phrase change nothing. -/
theorem search_after_insertAll (h : s.connection.Serves w db)
    (hc : db.collection? s.collection = some c)
    (hname : CollectionName.service s.collection = .full) (records : List CatalogRecord)
    {query : String} {e : Expression} (hnul : Char.ofNat 0 ∉ query.toList)
    (hquery : Expression.ofQuery query = .ok e) :
    let terms := Terms.ofText (Text.trim query)
    let required := if terms.phrases = [] then terms.words else terms.phrases
    ∃ w' outcome,
      (do let _ ← s.insertAll records; s.search query : Action _).run w = (outcome, w') ∧
      (if (if 2 ≤ required.length then 1 else 0) + terms.excluded.length ≤ 256 then
          ∃ found, outcome = .ok found ∧ found.Perm ((c ++ records).filter terms.Matches)
        else outcome = .error .database) ∧
      ∀ words, terms.phrases ≠ [] →
        ∀ r : CatalogRecord, ({ terms with words } : Terms).Matches r ↔ terms.Matches r := by
  intro terms required
  obtain ⟨w', hrun⟩ := run_search_after_insertAll h hc hname records hnul hquery
  refine ⟨w', _, hrun, ?_, fun words hphrases r => ?_⟩
  · -- the expression is that of the terms, so its depth is a matter of counting them
    rw [(Expression.read?_of_ofQuery hquery hnul).1, depth_ofTerms]
    by_cases hdepth : (if 2 ≤ required.length then 1 else 0) + terms.excluded.length ≤ 256
    · rw [if_pos hdepth]
      exact ⟨_, if_pos hdepth, Collection.select_perm (c ++ records) terms⟩
    · rw [if_neg hdepth]
      exact if_neg hdepth
  · simp only [Terms.Matches, if_neg hphrases]

/-- A workspace with a spare database in which a collection has been opened. -/
def withSpareCollection : Workspace :=
  ⟨.bare, [⟨[("chess", [])], none⟩], []⟩

/-- That collection. -/
def spareCollection : Store :=
  ⟨⟨.spare 0, (Address.ofPath Address.sparePath).access⟩, "chess"⟩

theorem spareCollection_serves :
    spareCollection.connection.Serves withSpareCollection ⟨[("chess", [])], none⟩ where
  mayChange := by decide
  database := rfl
  free := fun _ hplace => nomatch hplace

/-- A phrase that must occur, a word beside it, and excluded terms with and without tokens. -/
theorem search_after_insertAll_phrase :
    spareCollection.connection.Serves withSpareCollection ⟨[("chess", [])], none⟩ ∧
      CollectionName.service spareCollection.collection = .full ∧
      ∃ w' found, (do
          let _ ← spareCollection.insertAll
            [⟨"The beam energy was 40 keV", "/a/b/c", 1⟩, ⟨"energy of the beam", "/a/b/d", 2⟩,
              ⟨"Beam-energy calibration", "/a/b/c", 1⟩, ⟨"The beam energy was 40 keV", "/a/b/c", 1⟩]
          spareCollection.search "silicon \"Beam  ENERGY\" -calibration -!" : Action _).run
          withSpareCollection = (.ok found, w') ∧
        found.Perm
          [⟨"The beam energy was 40 keV", "/a/b/c", 1⟩,
            ⟨"The beam energy was 40 keV", "/a/b/c", 1⟩] := by
  have hquery : Expression.ofQuery "silicon \"Beam  ENERGY\" -calibration -!" =
      .ok ⟨.any, ["Beam  ENERGY"], ["calibration", "!"]⟩ := by decide +kernel
  refine ⟨spareCollection_serves, by decide, ?_⟩
  obtain ⟨w', outcome, hrun, houtcome, -⟩ := search_after_insertAll spareCollection_serves rfl
    (by decide)
    [⟨"The beam energy was 40 keV", "/a/b/c", 1⟩, ⟨"energy of the beam", "/a/b/d", 2⟩,
      ⟨"Beam-energy calibration", "/a/b/c", 1⟩, ⟨"The beam energy was 40 keV", "/a/b/c", 1⟩]
    (by decide) hquery
  rw [if_pos (by decide +kernel)] at houtcome
  obtain ⟨found, rfl, hperm⟩ := houtcome
  refine ⟨w', found, hrun, hperm.trans (List.Perm.of_eq ?_)⟩
  decide +kernel

/-! ## §3 Too many exclusions -/

/-- The query for `alpha` that excludes `b`, as often as given. -/
def exclusionQuery (n : Nat) : String :=
  String.ofList ("alpha".toList ++ (List.replicate n " -b".toList).flatten)

theorem toList_exclusionQuery (n : Nat) :
    (exclusionQuery n).toList =
      'a' :: ("lpha".toList ++ (List.replicate n [' ', '-', 'b']).flatten) :=
  String.toList_ofList

theorem breaks_exclusions (n : Nat) :
    Terms.Breaks (List.replicate n [' ', '-', 'b']).flatten := by
  cases n with
  | zero => exact Terms.breaks_nil
  | succ n => exact Terms.breaks_cons (by decide) _

theorem ofChars_exclusions (n : Nat) :
    Terms.ofChars (List.replicate n [' ', '-', 'b']).flatten =
      ⟨[], [], List.replicate n "b"⟩ := by
  induction n with
  | zero => exact Terms.ofChars_nil
  | succ n ih =>
    calc Terms.ofChars (' ' :: '-' :: (['b'] ++ (List.replicate n [' ', '-', 'b']).flatten))
        = Terms.ofChars ('-' :: (['b'] ++ (List.replicate n [' ', '-', 'b']).flatten)) :=
          Terms.ofChars_blank (by decide) _
      _ = Terms.withWord ['-', 'b'] (Terms.ofChars (List.replicate n [' ', '-', 'b']).flatten) :=
          Terms.ofChars_word (by decide) (by decide) (by decide) (breaks_exclusions n)
      _ = Terms.withWord ['-', 'b'] ⟨[], [], List.replicate n "b"⟩ :=
          congrArg (Terms.withWord ['-', 'b']) ih
      _ = ⟨[], [], List.replicate (n + 1) "b"⟩ := rfl

theorem trim_exclusionQuery (n : Nat) : Text.trim (exclusionQuery n) = exclusionQuery n := by
  have hends : Text.trimChars (exclusionQuery n).toList = (exclusionQuery n).toList := by
    refine Text.trimChars_eq_self_iff.mpr ⟨fun c hc => ?_, fun c hc => ?_⟩
    · rw [toList_exclusionQuery] at hc
      cases hc
      decide
    · rw [toList_exclusionQuery] at hc
      cases n with
      | zero =>
        cases hc
        decide
      | succ n =>
        have hlast : 'a' :: ("lpha".toList ++ (List.replicate (n + 1) [' ', '-', 'b']).flatten) =
            'a' :: ("lpha".toList ++ (List.replicate n [' ', '-', 'b']).flatten ++ [' ', '-']) ++
              ['b'] := by
          simp [List.replicate_succ']
        rw [hlast, List.getLast?_concat] at hc
        cases hc
        decide
  rw [Text.trim, hends, String.ofList_toList]

theorem ofText_exclusionQuery (n : Nat) :
    Terms.ofText (Text.trim (exclusionQuery n)) = ⟨["alpha"], [], List.replicate n "b"⟩ := by
  rw [trim_exclusionQuery, Terms.ofText, toList_exclusionQuery]
  calc Terms.ofChars ('a' :: ("lpha".toList ++ (List.replicate n [' ', '-', 'b']).flatten))
      = Terms.withWord ('a' :: "lpha".toList)
          (Terms.ofChars (List.replicate n [' ', '-', 'b']).flatten) :=
        Terms.ofChars_word (by decide) (by decide) (by decide) (breaks_exclusions n)
    _ = Terms.withWord ('a' :: "lpha".toList) ⟨[], [], List.replicate n "b"⟩ :=
        congrArg (Terms.withWord ('a' :: "lpha".toList)) (ofChars_exclusions n)
    _ = ⟨["alpha"], [], List.replicate n "b"⟩ := rfl

theorem ofQuery_exclusionQuery (n : Nat) :
    Expression.ofQuery (exclusionQuery n) = .ok ⟨.any, ["alpha"], List.replicate n "b"⟩ := by
  have hterms := ofText_exclusionQuery n
  have hrequired :
      (Expression.ofTerms (Terms.ofText (Text.trim (exclusionQuery n)))).required ≠ [] := by
    rw [hterms]
    simp [Expression.ofTerms]
  rw [Expression.ofQuery_of_required hrequired, hterms]
  rfl

theorem depth_exclusions (n : Nat) :
    (⟨.any, ["alpha"], List.replicate n "b"⟩ : Expression).depth = n := by
  simp [Expression.depth]

/-- **Too many exclusions**: a query that is accepted, and that the only record of a collection
matches, fails. -/
theorem search_fails_on_many_exclusions :
    (∃ e, Expression.ofQuery (exclusionQuery 257) = .ok e) ∧
      Char.ofNat 0 ∉ (exclusionQuery 257).toList ∧
      (Terms.ofText (Text.trim (exclusionQuery 257))).Matches ⟨"alpha", "/a/b/c", 1⟩ ∧
      ∃ w', (do
          let _ ← spareCollection.insertAll [⟨"alpha", "/a/b/c", 1⟩]
          spareCollection.search (exclusionQuery 257) : Action _).run withSpareCollection =
        (.error .database, w') := by
  have hnul : Char.ofNat 0 ∉ (exclusionQuery 257).toList := by
    rw [toList_exclusionQuery]
    decide +kernel
  refine ⟨⟨_, ofQuery_exclusionQuery 257⟩, hnul, ?_, ?_⟩
  · rw [ofText_exclusionQuery]
    refine ⟨by decide +kernel, fun term hterm => ?_⟩
    rw [List.eq_of_mem_replicate hterm]
    decide +kernel
  · obtain ⟨w', hrun⟩ := run_search_after_insertAll spareCollection_serves rfl (by decide)
      [⟨"alpha", "/a/b/c", 1⟩] hnul (ofQuery_exclusionQuery 257)
    have hdeep : ¬ (⟨.any, ["alpha"], List.replicate 257 "b"⟩ : Expression).depth ≤
        Expression.depthLimit := by
      rw [depth_exclusions]
      decide
    rw [if_neg hdeep] at hrun
    exact ⟨w', hrun⟩

end Store

end MetadataCatalog
