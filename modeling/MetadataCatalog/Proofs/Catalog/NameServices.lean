import MetadataCatalog.Proofs.Catalog.Parameters
import MetadataCatalog.Proofs.Catalog.QueryParts

/-!
# What names are good for

An accepted name can still be one that a database does not go along with, or not all the way.

- **Opening**: in a spare database some accepted names fail (`run_openSpare_of_none`), and under the
  others there is an empty collection then (`exists_run_openSpare`).
- **Searching**: how far a database goes along with a name says when a search succeeds that nothing
  else stands against: always, never, or as long as the collection is empty or nothing is found
  (`exists_search_iff`).
- **Runs of calls**: under a name that is good for everything, each call succeeds and leaves an open
  collection (`run_perform`), and so does, by induction, every run of calls (`run_performAll`).

So a store can be used exactly under the accepted names that are good for everything
(`opensUsably_iff`).
-/

namespace MetadataCatalog

/-! ## §1 Opening -/

namespace Connection

/-- A connection to a spare database. -/
def toSpare (index : Nat) : Connection :=
  ⟨.spare index, (Address.ofPath Address.sparePath).access⟩

theorem run_ofAddress_spare (w : Workspace) : (ofAddress Address.sparePath).run w =
    (.ok (toSpare w.spares.length), { w with spares := w.spares ++ [.empty] }) := by
  have haddress : Address.ofText? Address.sparePath = some (Address.ofPath Address.sparePath) := by
    decide +kernel
  rw [ofAddress, haddress]
  rfl

/-- A new spare database is served, and it is empty. -/
theorem serves_toSpare (w : Workspace) :
    (toSpare w.spares.length).Serves { w with spares := w.spares ++ [.empty] } .empty where
  mayChange := by
    show (Address.ofPath Address.sparePath).access.mayChange = true
    decide
  database := List.getElem?_concat_length
  free place hplace := by cases hplace

end Connection

namespace Store

variable {name : String}

/-- The collection is open: its database is served and has it. -/
def IsOpen (s : Store) (w : Workspace) (c : Collection) : Prop :=
  ∃ db, s.connection.Serves w db ∧ db.collection? s.collection = some c

theorem run_openSpare (name : String) (w : Workspace) : (openSpare name).run w =
    (ofConnection (.toSpare w.spares.length) name).run
      { w with spares := w.spares ++ [.empty] } := by
  unfold openSpare
  rw [Work.run_bind_ok (Connection.run_ofAddress_spare w)]

/-- An accepted name that is good for nothing fails in the database. -/
theorem run_openSpare_of_none (hcheck : CollectionName.check name = .ok ())
    (hname : CollectionName.service name = .none) (w : Workspace) :
    ∃ w', (openSpare name).run w = (.error .database, w') := by
  have hmake : Database.empty.openCollection name = .error .database := by
    rw [Database.openCollection_empty, if_pos hname]
  have hfails :=
    (Connection.serves_toSpare w).run_make_error (fun db => db.openCollection name) hmake
  rw [run_openSpare, ofConnection, hcheck]
  exact ⟨_, Work.run_bind_error hfails _⟩

/-- Under every other accepted name there is an empty collection then. -/
theorem exists_run_openSpare (hcheck : CollectionName.check name = .ok ())
    (hname : CollectionName.service name ≠ .none) (w : Workspace) :
    ∃ s w', (openSpare name).run w = (.ok s, w') ∧ s.collection = name ∧ s.IsOpen w' [] := by
  have hmake : Database.empty.openCollection name = .ok ⟨[(Text.lowerAscii name, [])], none⟩ := by
    rw [Database.openCollection_empty, if_neg hname]
  obtain ⟨w', hrun, hserves, -⟩ :=
    (Connection.serves_toSpare w).run_make (fun db => db.openCollection name) hmake
  have hempty : (⟨[(Text.lowerAscii name, [])], none⟩ : Database).collection? name = some [] :=
    Database.collection?_of_single rfl
  refine ⟨⟨.toSpare w.spares.length, name⟩, w', ?_, rfl, _, hserves, hempty⟩
  rw [run_openSpare, ofConnection, hcheck]
  exact Work.run_bind_ok hrun _

end Store

/-! ## §2 Searching -/

/-- Whether a search for terms among records is answered, by how far a database goes along with the
name of their collection. -/
def CollectionName.Service.Answers (service : Service) (c : Collection) (terms : Terms) : Prop :=
  match service with
  | .none => False
  | .noSearch => False
  | .emptySearch => c = []
  | .fruitlessSearch => ∀ r ∈ c, ¬ terms.Matches r
  | .full => True

/-- Under a name that is not good for everything, what matches is not found. -/
theorem CollectionName.Service.not_answers {service : Service} (h : service ≠ .full)
    {c : Collection} {terms : Terms} {r : CatalogRecord} (hr : r ∈ c) (hmatches : terms.Matches r) :
    ¬ service.Answers c terms := by
  cases service with
  | none => exact id
  | noSearch => exact id
  | emptySearch => exact List.ne_nil_of_mem hr
  | fruitlessSearch => exact fun hnone => hnone r hr hmatches
  | full => exact absurd rfl h

/-- A query that is accepted, has no NUL and is not too deep. -/
def Expression.IsFair (query : String) : Prop :=
  Char.ofNat 0 ∉ query.toList ∧ ∃ e, ofQuery query = .ok e ∧ e.depth ≤ depthLimit

/-- Among records alone, a fair query is always answered. -/
theorem Collection.exists_search_of_isFair {query : String} (h : Expression.IsFair query)
    (c : Collection) : ∃ found, c.search query = .ok found ∧
      (found = [] ↔ ∀ r ∈ c, ¬ (Terms.ofText query).Matches r) := by
  obtain ⟨hnul, e, hquery, hdepth⟩ := h
  have hterms := (Expression.ofQuery_eq_ok_iff.mp hquery).2
  rw [Terms.ofText_trim] at hterms
  refine ⟨c.select e, (search_of_ofQuery hquery hnul c).trans (if_pos hdepth), ?_⟩
  rw [← hterms, List.eq_nil_iff_forall_not_mem]
  simp only [(c.select_perm (Terms.ofText query)).mem_iff, List.mem_filter, decide_eq_true_eq,
    not_and]

/-- **A search that nothing else stands against** is answered or fails by the name. -/
theorem Database.exists_search_iff {db : Database} {name query : String} {c : Collection}
    (hc : db.collection? name = some c) (h : Expression.IsFair query) :
    (∃ found, db.search name query = .ok found) ↔
      (CollectionName.service name).Answers c (Terms.ofText query) := by
  obtain ⟨-, e, hquery, -⟩ := id h
  obtain ⟨found, hsearch, hnone⟩ := Collection.exists_search_of_isFair h c
  unfold Database.search CollectionName.Service.Answers
  simp only [hquery, hc, bind, Except.bind]
  -- the cases are those of the search, and what is nested in one of them is what has been found
  cases CollectionName.service name with
  | none => simp
  | noSearch => simp
  | emptySearch => cases c <;> simp
  | fruitlessSearch =>
    simp only [hsearch, ← hnone]
    cases found <;> simp
  | full => simp [hsearch]

namespace Store

variable {s : Store} {w : Workspace} {c : Collection}

/-- The database is asked, and nothing changes. -/
theorem IsOpen.exists_run_search (h : s.IsOpen w c) (query : String) :
    ∃ db : Database, db.collection? s.collection = some c ∧
      (s.search query).run w = (db.search s.collection query, w) := by
  obtain ⟨db, hserves, hc⟩ := h
  exact ⟨db, hc, hserves.run_query fun db => db.search s.collection query⟩

theorem exists_run_search_iff (h : s.IsOpen w c) {query : String} (hquery : Expression.IsFair query) :
    (∃ found, (s.search query).run w = (.ok found, w)) ↔
      (CollectionName.service s.collection).Answers c (Terms.ofText query) := by
  obtain ⟨db, hc, hrun⟩ := h.exists_run_search query
  rw [hrun, ← Database.exists_search_iff hc hquery]
  constructor
  · rintro ⟨found, hfound⟩
    exact ⟨found, (Prod.mk.inj hfound).1⟩
  · rintro ⟨found, hfound⟩
    exact ⟨found, congrArg (·, w) hfound⟩

end Store

/-! ## §3 Runs of calls -/

/-- What a store can be asked to do. -/
inductive StoreCall where
  | insert (r : CatalogRecord)
  | search (query : String)
  deriving DecidableEq, Repr

/-- Every insertion, and the searches for fair queries. -/
def StoreCall.IsFair : StoreCall → Prop
  | .insert _ => True
  | .search query => Expression.IsFair query

namespace Store

/-- Does what is asked for. -/
def perform (s : Store) : StoreCall → Action Unit
  | .insert r => do let _ ← s.insert r
  | .search query => do let _ ← s.search query

/-- Does one thing after the other, until something fails. -/
def performAll (s : Store) : List StoreCall → Action Unit
  | [] => return ()
  | call :: rest => do
    s.perform call
    s.performAll rest

variable {s : Store} {w : Workspace} {c : Collection}

/-- **One call** succeeds under a name that is good for everything, and the collection stays open. -/
theorem run_perform (hname : CollectionName.service s.collection = .full) (h : s.IsOpen w c)
    {call : StoreCall} (hcall : call.IsFair) :
    ∃ w' c', (s.perform call).run w = (.ok (), w') ∧ s.IsOpen w' c' := by
  cases call with
  | insert r =>
    obtain ⟨db, hserves, hc⟩ := h
    obtain ⟨w', db', hrun, hserves', hc'⟩ := run_insert hserves hc r
    exact ⟨w', c ++ [r], Work.run_bind_ok hrun _, db', hserves', hc'⟩
  | search query =>
    have hanswers : (CollectionName.service s.collection).Answers c (Terms.ofText query) := by
      rw [hname]
      trivial
    obtain ⟨found, hrun⟩ := (exists_run_search_iff h hcall).mpr hanswers
    exact ⟨w, c, Work.run_bind_ok hrun _, h⟩

/-- **A run of calls** succeeds under such a name. -/
theorem run_performAll (hname : CollectionName.service s.collection = .full) (h : s.IsOpen w c)
    {calls : List StoreCall} (hcalls : ∀ call ∈ calls, call.IsFair) :
    ∃ w', (s.performAll calls).run w = (.ok (), w') := by
  induction calls generalizing w c with
  | nil => exact ⟨w, rfl⟩
  | cons call rest ih =>
    obtain ⟨hcall, hrest⟩ := List.forall_mem_cons.mp hcalls
    obtain ⟨w₁, c₁, hfirst, hopen⟩ := run_perform hname h hcall
    obtain ⟨w₂, hmore⟩ := ih hopen hrest
    exact ⟨w₂, (Work.run_bind_ok hfirst _).trans hmore⟩

/-! ## §4 Stores that can be used -/

/-- Opening in a spare database refuses the name, or it opens a store that does whatever it is fairly
asked to. -/
def OpensUsably (name : String) (w : Workspace) : Prop :=
  (∃ why w', (openSpare name).run w = (.error (.refused why), w')) ∨
    ∃ s w', (openSpare name).run w = (.ok s, w') ∧
      ∀ calls : List StoreCall, (∀ call ∈ calls, call.IsFair) →
        ∃ w'', (s.performAll calls).run w' = (.ok (), w'')

theorem isFair_alpha : Expression.IsFair "alpha" :=
  ⟨by decide, ⟨.any, ["alpha"], []⟩, by decide +kernel, by decide⟩

theorem isFair_insert_search : ∀ call ∈ [StoreCall.insert ⟨"alpha", "/a/b/c", 1⟩, .search "alpha"],
    call.IsFair := by
  simp [StoreCall.IsFair, isFair_alpha]

/-- Under a name that is not good for everything, inserting a record and searching for it fails. -/
theorem not_run_performAll (hname : CollectionName.service s.collection ≠ .full)
    (h : s.IsOpen w []) :
    ¬ ∃ w', (s.performAll [.insert ⟨"alpha", "/a/b/c", 1⟩, .search "alpha"]).run w =
      (.ok (), w') := by
  rintro ⟨w', hrun⟩
  obtain ⟨db, hserves, hc⟩ := h
  obtain ⟨w₁, db₁, hinsert, hserves₁, hc₁⟩ := run_insert hserves hc ⟨"alpha", "/a/b/c", 1⟩
  have hopen : s.IsOpen w₁ [⟨"alpha", "/a/b/c", 1⟩] := ⟨db₁, hserves₁, hc₁⟩
  have hfirst : (s.perform (.insert ⟨"alpha", "/a/b/c", 1⟩)).run w = (.ok (), w₁) :=
    Work.run_bind_ok hinsert _
  have hrest : (s.performAll [.search "alpha"]).run w₁ = (.ok (), w') :=
    (Work.run_bind_ok hfirst _).symm.trans hrun
  -- the second call is a search among one record, which matches
  obtain ⟨_, w₂, hsecond, -⟩ := Work.exists_of_run_bind hrest
  obtain ⟨found, w₃, hsearch, -⟩ := Work.exists_of_run_bind hsecond
  obtain ⟨db', -, hsame⟩ := hopen.exists_run_search "alpha"
  obtain ⟨-, rfl⟩ := Prod.mk.inj (hsame.symm.trans hsearch)
  have hanswers := (exists_run_search_iff hopen isFair_alpha).mp ⟨found, hsearch⟩
  exact CollectionName.Service.not_answers hname List.mem_cons_self (by decide +kernel) hanswers

/-- **Names under which a store can be used.** Opening in a spare database refuses the name or gives a
store that does whatever it is fairly asked to, exactly when the name is not accepted or good for
everything. It fails in the database exactly under the accepted names that are good for nothing.
Under the others every record is taken in, and whether a search is answered depends on the name and
on the records. -/
theorem opensUsably_iff (name : String) (w : Workspace) :
    (OpensUsably name w ↔
      CollectionName.check name ≠ .ok () ∨ CollectionName.service name = .full) ∧
    ((∃ w', (openSpare name).run w = (.error .database, w')) ↔
      CollectionName.check name = .ok () ∧ CollectionName.service name = .none) ∧
    (CollectionName.check name = .ok () → CollectionName.service name ≠ .none →
      ∃ s w', (openSpare name).run w = (.ok s, w') ∧ ∀ records : List CatalogRecord,
        ∃ numbers w'', (s.insertAll records).run w' = (.ok numbers, w'') ∧
          ∀ query, Expression.IsFair query →
            ((∃ found, (s.search query).run w'' = (.ok found, w'')) ↔
              (CollectionName.service name).Answers records (Terms.ofText query))) := by
  by_cases hcheck : CollectionName.check name = .ok ()
  · by_cases hname : CollectionName.service name = .none
    · -- opening fails, and not as a refusal
      obtain ⟨w', hfails⟩ := run_openSpare_of_none hcheck hname w
      refine ⟨⟨?_, ?_⟩, ⟨fun _ => ⟨hcheck, hname⟩, fun _ => ⟨w', hfails⟩⟩, ?_⟩
      · rintro (⟨why, w₁, hrun⟩ | ⟨s, w₁, hrun, -⟩)
        · cases hfails.symm.trans hrun
        · cases hfails.symm.trans hrun
      · rintro (hne | hfull)
        · exact absurd hcheck hne
        · cases hname.symm.trans hfull
      · exact fun _ hne => absurd hname hne
    · -- there is an empty collection, and the name decides about the calls
      obtain ⟨s, w', hrun, rfl, hopen⟩ := exists_run_openSpare hcheck hname w
      refine ⟨⟨?_, ?_⟩, ⟨?_, ?_⟩, ?_⟩
      · rintro (⟨why, w₁, hrefused⟩ | ⟨s', w₁, hrun', hcalls⟩)
        · cases hrun.symm.trans hrefused
        · cases hrun.symm.trans hrun'
          right
          by_contra hpart
          exact not_run_performAll hpart hopen (hcalls _ isFair_insert_search)
      · rintro (hne | hfull)
        · exact absurd hcheck hne
        · exact .inr ⟨s, w', hrun, fun _ hcalls => run_performAll hfull hopen hcalls⟩
      · rintro ⟨w₁, hfails⟩
        cases hrun.symm.trans hfails
      · rintro ⟨-, hnone⟩
        exact absurd hnone hname
      · intro _ _
        refine ⟨s, w', hrun, fun records => ?_⟩
        obtain ⟨db, hserves, hc⟩ := hopen
        obtain ⟨w'', db', hinsert, hserves', hrecords⟩ := run_insertAll hserves hc records
        exact ⟨_, w'', hinsert, fun _ => exists_run_search_iff ⟨db', hserves', hrecords⟩⟩
  · -- the name is refused
    obtain ⟨why, hwhy⟩ := CollectionName.check_of_ne hcheck
    have hrefused := (run_openSpare name w).trans (run_ofConnection_of_check hwhy _ _)
    refine ⟨⟨fun _ => .inl hcheck, fun _ => .inl ⟨why, _, hrefused⟩⟩, ⟨?_, ?_⟩, ?_⟩
    · rintro ⟨w', hfails⟩
      cases hrefused.symm.trans hfails
    · rintro ⟨hok, -⟩
      exact absurd hok hcheck
    · exact fun hok => absurd hok hcheck

/-- A name that is good for everything, one that is refused, and one under which records are taken in
and never found. -/
theorem opensUsably_iff_names :
    OpensUsably "chess" (.ofFiles .bare) ∧ OpensUsably "Rank" (.ofFiles .bare) ∧
      ∃ s w', (openSpare "cast").run (.ofFiles .bare) = (.ok s, w') ∧
        ∀ records : List CatalogRecord, ∃ numbers w'',
          (s.insertAll records).run w' = (.ok numbers, w'') ∧ ∀ query, Expression.IsFair query →
            ¬ ∃ found, (s.search query).run w'' = (.ok found, w'') := by
  refine ⟨(opensUsably_iff "chess" _).1.mpr (.inr (by decide)),
    (opensUsably_iff "Rank" _).1.mpr (.inl (by decide)), ?_⟩
  obtain ⟨s, w', hrun, hcalls⟩ := (opensUsably_iff "cast" _).2.2 (by decide) (by decide)
  refine ⟨s, w', hrun, fun records => ?_⟩
  obtain ⟨numbers, w'', hinsert, hsearch⟩ := hcalls records
  exact ⟨numbers, w'', hinsert, fun query hquery => (hsearch query hquery).mp⟩

/-- **An accepted name that fails in the database**: it is a word of the language of the database. -/
theorem openSpare_reserved_word : CollectionName.check "select" = .ok () ∧
    ∃ w', (openSpare "select").run (.ofFiles .bare) = (.error .database, w') :=
  ⟨by decide, run_openSpare_of_none (by decide) (by decide) _⟩

end Store

end MetadataCatalog
