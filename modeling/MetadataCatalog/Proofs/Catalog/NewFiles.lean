import MetadataCatalog.Proofs.Catalog.Openings

/-!
# New files

When all that happens to a tree is that files are made where nothing was (`GainsFiles`), whatever
was there is still there. A path to a database that went through folders is as it was, and it led to
where the path leads as other paths do (`canonical?_of_gainsFiles`). Beside a database without side
files there is nothing to tidy up, and only its file is written (`settle?_of_isClear`,
`kindAt?_writeDatabase?`).
-/

namespace MetadataCatalog.FileTree

/-! ## §1 Gaining files -/

section Gaining

variable {α : Type} {tree tree' tree'' : FileTree α} {new : List String → Prop}

/-- At some places there can be new files, and otherwise what stands where is of the same kind. -/
def GainsFiles (new : List String → Prop) (tree tree' : FileTree α) : Prop :=
  ∀ place, tree'.kindAt? place = tree.kindAt? place ∨
    new place ∧ tree.kindAt? place = none ∧ tree'.kindAt? place = some .file

theorem GainsFiles.of_kindAt? (h : ∀ place, tree'.kindAt? place = tree.kindAt? place) :
    GainsFiles new tree tree' :=
  fun place => Or.inl (h place)

theorem GainsFiles.trans (h : GainsFiles new tree tree') (h' : GainsFiles new tree' tree'') :
    GainsFiles new tree tree'' := by
  intro place
  rcases h place with hsame | ⟨hnew, hnone, hfile⟩
  · rw [← hsame]
    exact h' place
  · rcases h' place with hsame' | ⟨-, hnone', -⟩
    · exact Or.inr ⟨hnew, hnone, hsame'.trans hfile⟩
    · rw [hfile] at hnone'
      cases hnone'

theorem GainsFiles.mono {more : List String → Prop} (h : GainsFiles new tree tree')
    (hmore : ∀ place, new place → more place) : GainsFiles more tree tree' :=
  fun place => (h place).imp_right (And.imp_left (hmore place))

/-- Whatever was there is still there. -/
theorem GainsFiles.kindAt?_of_some (h : GainsFiles new tree tree') {place : List String}
    {kind : Kind} (hkind : tree.kindAt? place = some kind) : tree'.kindAt? place = some kind := by
  rcases h place with hsame | ⟨-, hnone, -⟩
  · rw [hsame, hkind]
  · rw [hnone] at hkind
    cases hkind

/-- Elsewhere nothing is new. -/
theorem GainsFiles.kindAt?_of_not (h : GainsFiles new tree tree') {place : List String}
    (hplace : ¬ new place) : tree'.kindAt? place = tree.kindAt? place := by
  rcases h place with hsame | ⟨hnew, -⟩
  · exact hsame
  · exact absurd hnew hplace

theorem folderAt_iff_kindAt? {place : List String} :
    tree.FolderAt place ↔ tree.kindAt? place = some .folder := by
  unfold FolderAt kindAt?
  rcases tree.at? place with _ | (content | target | entries) <;> simp [kind]

theorem GainsFiles.folderAt (h : GainsFiles new tree tree') {place : List String}
    (hplace : tree.FolderAt place) : tree'.FolderAt place :=
  folderAt_iff_kindAt?.mpr (h.kindAt?_of_some (folderAt_iff_kindAt?.mp hplace))

theorem exists_file_of_kindAt? {place : List String} (h : tree.kindAt? place = some .file) :
    ∃ content, tree.at? place = some (.file content) := by
  obtain ⟨node, hat, hkind⟩ := Option.map_eq_some_iff.mp h
  cases node with
  | file content => exact ⟨content, hat⟩
  | link target => cases hkind
  | folder entries => cases hkind

/-- Where a file is wanted, one is made if there is none. -/
theorem gainsFiles_withFileAt? {content : Option α} {place : List String} (hne : place ≠ [])
    (h : tree.withFileAt? content place = some tree') : GainsFiles (· = place) tree tree' := by
  rcases withFileAt?_eq_some h with ⟨-, rfl⟩ | ⟨content, -, hnone, habove, rfl⟩
  · exact .of_kindAt? fun _ => rfl
  · rcases List.eq_nil_or_concat place with rfl | ⟨above, name, rfl⟩
    · exact absurd rfl hne
    · rw [List.concat_eq_append] at hnone habove ⊢
      rw [List.dropLast_concat] at habove
      intro other
      by_cases hunder : above ++ [name] <+: other
      · obtain ⟨more, rfl⟩ := hunder
        have hold := at?_eq_none_below hnone (List.prefix_append _ more)
        have hput := at?_put_append habove name (.file content) more
        rw [← List.singleton_append, ← List.append_assoc] at hput
        cases more with
        | nil =>
          rw [List.append_nil] at hold hput ⊢
          exact Or.inr ⟨rfl, by rw [kindAt?, hold]; rfl, by rw [kindAt?, hput]; rfl⟩
        | cons first more => exact Or.inl (by rw [kindAt?, kindAt?, hold, hput]; rfl)
      · exact Or.inl (kindAt?_eq_of_labelAt? (labelAt?_put habove _ hunder))

end Gaining

/-! ## §2 Paths -/

/-- The place that a path leads to, also under a free name. -/
def Place.full : Place → List String
  | .taken place => place
  | .free above name => above ++ [name]
  | .nowhere => []

section Paths

variable {α : Type} {tree tree₁ tree₂ : FileTree α} {new : List String → Prop}

/-- A step under a name, on the way to a database, goes by the kind of what has the name. -/
theorem canonical?_name {step : String} (hdot : step ≠ ".") (hdots : step ≠ "..")
    (tree : FileTree α) (links : Nat) (place rest : List String) :
    tree.canonical? links place (step :: rest) =
      if wayLimit < fullLength (place ++ [step]) then none
      else if !tree.canLookUp place step then none
      else match tree.kindAt? (place ++ [step]) with
        | some (.link target) =>
          match links with
          | 0 => none
          | links + 1 =>
            match Path.steps? target with
            | none => none
            | some steps =>
              tree.canonical? links (if Path.isAbsolute target then [] else place) (steps ++ rest)
        | _ => tree.canonical? links (place ++ [step]) rest := by
  rw [canonical?.eq_def]
  simp only [if_neg hdot, if_neg hdots, kindAt?]
  rcases tree.at? (place ++ [step]) with _ | (content | target | entries) <;> rfl

theorem canLookUp_of_folderAt {place : List String} (hplace : tree.FolderAt place) (name : String) :
    tree.canLookUp place name = Path.isUsable name := by
  obtain ⟨entries, hentries⟩ := hplace
  rw [canLookUp, hentries]

/-- From a folder a name that is no link is passed, if a file can have it. -/
theorem canonical?_of_folderAt {place : List String} (hplace : tree.FolderAt place) {step : String}
    (hdot : step ≠ ".") (hdots : step ≠ "..")
    (hlink : ∀ target, tree.kindAt? (place ++ [step]) ≠ some (.link target)) (links : Nat)
    (rest : List String) :
    tree.canonical? links place (step :: rest) =
      if wayLimit < fullLength (place ++ [step]) ∨ Path.isUsable step = false then none
      else tree.canonical? links (place ++ [step]) rest := by
  rw [canonical?_name hdot hdots, canLookUp_of_folderAt hplace]
  by_cases hlong : wayLimit < fullLength (place ++ [step])
  · rw [if_pos hlong, if_pos (Or.inl hlong)]
  · rw [if_neg hlong]
    cases husable : Path.isUsable step with
    | false => rw [if_pos (by decide), if_pos (Or.inr rfl)]
    | true =>
      rw [if_neg (by decide), if_neg (by simp [hlong])]
      rcases hkind : tree.kindAt? (place ++ [step]) with _ | (_ | target | _)
      · rfl
      · rfl
      · exact absurd hkind (hlink target)
      · rfl

/-- From a folder that was there, a name that was no link is passed in both trees alike. -/
theorem canonical?_pass (h₁ : GainsFiles new tree tree₁) (h₂ : GainsFiles new tree tree₂)
    {links : Nat} {here rest place : List String} {step : String} (hhere : tree.FolderAt here)
    (hdot : step ≠ ".") (hdots : step ≠ "..")
    (hlink : ∀ target, tree.kindAt? (here ++ [step]) ≠ some (.link target))
    (hplace : tree₁.canonical? links here (step :: rest) = some place) :
    tree₁.canonical? links (here ++ [step]) rest = some place ∧
      tree₂.canonical? links here (step :: rest) = tree₂.canonical? links (here ++ [step]) rest := by
  have hnoLink : ∀ {t : FileTree α}, GainsFiles new tree t →
      ∀ target, t.kindAt? (here ++ [step]) ≠ some (.link target) := by
    intro t ht target heq
    rcases ht (here ++ [step]) with hsame | ⟨-, -, hfile⟩
    · exact hlink target (hsame ▸ heq)
    · rw [hfile] at heq
      cases heq
  rw [canonical?_of_folderAt (h₁.folderAt hhere) hdot hdots (hnoLink h₁)] at hplace
  rw [canonical?_of_folderAt (h₂.folderAt hhere) hdot hdots (hnoLink h₂)]
  split at hplace
  · cases hplace
  · next hok => exact ⟨hplace, if_neg hok⟩

/-- **Where only files are new** a path to a database is as it was, if it goes through folders that
were there. -/
theorem canonical?_of_gainsFiles (h₁ : GainsFiles new tree tree₁) (h₂ : GainsFiles new tree tree₂)
    {followed links : Nat} {start steps place : List String} (hstart : tree.FolderAt start)
    (hway : tree.resolve followed start steps ≠ .nowhere)
    (hplace : tree₁.canonical? links start steps = some place) :
    place = (tree.resolve followed start steps).full ∧
      tree₂.canonical? links start steps = some place := by
  fun_induction resolve tree followed start steps generalizing links with
  | case1 =>
    rw [canonical?] at hplace ⊢
    exact ⟨(Option.some.inj hplace).symm, hplace⟩
  | case2 _ _ _ ih =>
    rw [canonical?, if_pos rfl] at hplace ⊢
    exact ih hstart hway hplace
  | case3 _ _ _ _ ih =>
    rw [canonical?, if_neg (by decide), if_pos rfl] at hplace ⊢
    exact ih (hstart.above (List.dropLast_prefix _)) hway hplace
  | case5 _ here step hdot hdots husable hat =>
    have hkind : tree.kindAt? (here ++ [step]) = none := by rw [kindAt?, hat]; rfl
    obtain ⟨hend, hsame⟩ := canonical?_pass h₁ h₂ hstart hdot hdots (by simp [hkind]) hplace
    rw [canonical?] at hend
    rw [hsame, canonical?]
    exact ⟨(Option.some.inj hend).symm, hend⟩
  | case7 _ here step rest hdot hdots husable entries hat ih =>
    have hkind : tree.kindAt? (here ++ [step]) = some .folder := by rw [kindAt?, hat]; rfl
    obtain ⟨hrest, hsame⟩ := canonical?_pass h₁ h₂ hstart hdot hdots (by simp [hkind]) hplace
    rw [hsame]
    exact ih ⟨entries, hat⟩ hway hrest
  | case8 _ here step hdot hdots husable content hat =>
    have hkind : tree.kindAt? (here ++ [step]) = some .file := by rw [kindAt?, hat]; rfl
    obtain ⟨hend, hsame⟩ := canonical?_pass h₁ h₂ hstart hdot hdots (by simp [hkind]) hplace
    rw [canonical?] at hend
    rw [hsame, canonical?]
    exact ⟨(Option.some.inj hend).symm, hend⟩
  | case12 here step rest hdot hdots husable target hat followed steps hsteps ih =>
    have hkind : tree.kindAt? (here ++ [step]) = some (.link target) := by rw [kindAt?, hat]; rfl
    rw [canonical?_name hdot hdots, canLookUp_of_folderAt (h₁.folderAt hstart),
      h₁.kindAt?_of_some hkind] at hplace
    rw [canonical?_name hdot hdots, canLookUp_of_folderAt (h₂.folderAt hstart),
      h₂.kindAt?_of_some hkind]
    have hnext : tree.FolderAt (if Path.isAbsolute target then [] else here) := by
      split
      · exact hstart.above List.nil_prefix
      · exact hstart
    by_cases hlong : wayLimit < fullLength (here ++ [step])
    · rw [if_pos hlong] at hplace
      cases hplace
    · rw [if_neg hlong, if_neg husable] at hplace ⊢
      cases links with
      | zero => cases hplace
      | succ links =>
        simp only [hsteps] at hplace ⊢
        exact ih hnext hway hplace
  | _ => exact absurd rfl hway

theorem databasePlace?_of_gainsFiles (h₁ : GainsFiles new tree tree₁)
    (h₂ : GainsFiles new tree tree₂) (hwork : tree.HasWorkingFolder) {path : String}
    {place : List String} (hway : tree.placeOf path ≠ .nowhere)
    (hplace : tree₁.databasePlace? path = some place) :
    place = (tree.placeOf path).full ∧ tree₂.databasePlace? path = some place := by
  obtain ⟨hcanonical, hlength⟩ := Option.filter_eq_some_iff.mp hplace
  obtain ⟨steps, hsteps⟩ : ∃ steps, Path.steps? path = some steps := by
    refine Option.isSome_iff_exists.mp (Option.isSome_iff_ne_none.mpr fun hnone => hway ?_)
    rw [placeOf, hnone]
  obtain rfl : Path.steps path = steps := by
    unfold Path.steps? at hsteps
    split at hsteps
    · cases hsteps
    · exact Option.some.inj hsteps
  have hresolve : tree.placeOf path = tree.resolve linkLimit (startOf path) (Path.steps path) := by
    rw [placeOf, hsteps]
  rw [hresolve] at hway ⊢
  obtain ⟨hfull, hsame⟩ :=
    canonical?_of_gainsFiles h₁ h₂ (hwork.folderAt_startOf path) hway hcanonical
  exact ⟨hfull, Option.filter_eq_some_iff.mpr ⟨hsame, hlength⟩⟩

/-- A name that was free is free, unless a new file has it. -/
theorem resolve_free_of_gainsFiles (h : GainsFiles new tree tree₁) {links : Nat}
    {start steps above : List String} {name : String}
    (hfree : tree.resolve links start steps = .free above name)
    (hnew : ¬ new (above ++ [name])) : tree₁.resolve links start steps = .free above name := by
  -- what is on the way is there, so it is as before
  have hkind : ∀ place old, tree.at? place = some old → tree₁.kindAt? place = some old.kind := by
    intro place old hold
    refine h.kindAt?_of_some ?_
    rw [kindAt?, hold]
    rfl
  fun_induction resolve tree links start steps with
  | case2 _ _ _ ih =>
    rw [resolve, if_pos rfl]
    exact ih hfree
  | case3 _ _ _ _ ih =>
    rw [resolve, if_neg (by decide), if_pos rfl]
    exact ih hfree
  | case5 _ place step hdot hdots husable hat =>
    obtain ⟨rfl, rfl⟩ := Place.free.inj hfree
    have hnone : tree₁.kindAt? (place ++ [step]) = none := by
      rw [h.kindAt?_of_not hnew, kindAt?, hat]
      rfl
    rw [resolve_name hdot hdots (by simpa using husable), hnone]
    rfl
  | case7 _ place step rest hdot hdots husable entries hat ih =>
    rw [resolve_name hdot hdots (by simpa using husable), hkind _ _ hat]
    exact ih hfree
  | case12 place step rest hdot hdots husable target hat links steps hsteps ih =>
    rw [resolve_name hdot hdots (by simpa using husable), hkind _ _ hat]
    simp only [kind, hsteps]
    exact ih hfree
  | _ => cases hfree

/-- A path that led somewhere still does. -/
theorem GainsFiles.hasPath (h : GainsFiles new tree tree₁) {path : String}
    (hpath : tree.hasPath path = true) : tree₁.hasPath path = true := by
  unfold FileTree.hasPath node? placeOf at hpath ⊢
  cases hsteps : Path.steps? path with
  | none =>
    rw [hsteps] at hpath
    cases hpath
  | some steps =>
    simp only [hsteps] at hpath ⊢
    cases hplace : tree.resolve linkLimit (startOf path) steps with
    | nowhere =>
      rw [hplace] at hpath
      cases hpath
    | free above name =>
      rw [hplace] at hpath
      cases hpath
    | taken place =>
      simp only [hplace] at hpath
      obtain ⟨node, hat⟩ := Option.isSome_iff_exists.mp hpath
      have hkind : tree.kindAt? place = some node.kind := by
        rw [kindAt?, hat]
        rfl
      obtain ⟨node', hat', -⟩ := Option.map_eq_some_iff.mp (h.kindAt?_of_some hkind)
      have htaken := resolve_of_kindAt? (fun place kind => h.kindAt?_of_some) hplace
      rw [htaken]
      simp only [hat', Option.isSome_some]

end Paths

/-! ## §3 No side files -/

section Clear

variable {tree tree' : Files} {place : List String}

/-- Nothing has the name of a side file of the database at a place. -/
def IsClear (tree : Files) (place : List String) : Prop :=
  ∀ side : SideFile, tree.at? (side.place place) = none

theorem IsClear.of_gainsFiles {new : List String → Prop} (hclear : tree.IsClear place)
    (h : GainsFiles new tree tree') (hnew : ∀ side : SideFile, ¬ new (side.place place)) :
    tree'.IsClear place := by
  intro side
  have hkind := h.kindAt?_of_not (hnew side)
  rwa [kindAt?, kindAt?, hclear side, Option.map_none, Option.map_eq_none_iff] at hkind

/-- Where no side files are there is nothing to tidy up. -/
theorem settle?_of_isClear (hplace : IsDotless place) (habove : tree.FolderAt place.dropLast)
    (hclear : tree.IsClear place) {access : Access}
    (h : settle? place access tree = some tree') : tree' = tree := by
  have hjournal := isPresent_of_at?_eq_none hplace habove (hclear .journal)
  have hlog := isPresent_of_at?_eq_none hplace habove (hclear .log)
  obtain ⟨tree₁, hfirst, hsecond⟩ := Option.bind_eq_some_iff.mp h
  obtain ⟨short, -, hfirst⟩ := Option.bind_eq_some_iff.mp hfirst
  rw [if_pos (by simp [hjournal])] at hfirst
  cases hfirst
  obtain ⟨short, -, hsecond⟩ := Option.bind_eq_some_iff.mp hsecond
  rw [if_pos (by simp [hlog])] at hsecond
  cases hsecond
  rfl

/-- Where no side files are only the file itself is written. -/
theorem kindAt?_writeDatabase? {content : Content} (hfile : tree.at? place = some (.file content))
    (hclear : tree.IsClear place) {db : Database} (h : writeDatabase? place db tree = some tree')
    (other : List String) : tree'.kindAt? other = tree.kindAt? other := by
  have hkind := kindAt?_put_file hfile (.database db)
  have hnone : (tree.put place (.file (.database db))).at? (SideFile.journal.place place) =
      none := by
    have hside := hkind (SideFile.journal.place place)
    rwa [kindAt?, kindAt?, hclear .journal, Option.map_none, Option.map_eq_none_iff] at hside
  have herase : (tree.put place (.file (.database db))).erase (SideFile.journal.place place) =
      tree.put place (.file (.database db)) := erase_of_at?_none hnone
  simp only [writeDatabase?] at h
  split at h
  · cases h
    rw [herase]
    exact hkind other
  · cases h

end Clear

end MetadataCatalog.FileTree
