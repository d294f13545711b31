import MetadataCatalog.Proofs.Storage.Overwriting
import MetadataCatalog.Storage.Saving

/-!
# Saving

Saving a document makes the folders on the way and then writes one file. Folders that are made take
nothing away: the files and links are the same ones, and folders remain folders (`Extends`). After
the writing the path leads to the file that was written, and no other file is changed, made or lost
(`Written`).

All this is about trees with a working folder: a path that begins nowhere leads nowhere.
-/

namespace MetadataCatalog.FileTree

variable {α : Type} {tree tree' : FileTree α}

/-! ## §1 Folders -/

/-- A folder stands at a place. -/
def FolderAt (tree : FileTree α) (place : List String) : Prop :=
  ∃ entries, tree.at? place = some (.folder entries)

/-- The working directory is there. -/
def HasWorkingFolder (tree : FileTree α) : Prop :=
  tree.FolderAt workingPlace

/-- What has something below it is a folder. -/
theorem folderAt_of_at?_append {above : List String} {name : String} {rest : List String}
    {node : FileTree α} (h : tree.at? (above ++ name :: rest) = some node) :
    tree.FolderAt above := by
  rw [at?_append] at h
  obtain ⟨found, hfound, hbelow⟩ := Option.bind_eq_some_iff.mp h
  obtain ⟨child, hchild, -⟩ := Option.bind_eq_some_iff.mp hbelow
  obtain ⟨entries, rfl⟩ := exists_folder_of_child? hchild
  exact ⟨entries, hfound⟩

theorem FolderAt.above {above place : List String} (h : tree.FolderAt place)
    (hunder : above <+: place) : tree.FolderAt above := by
  obtain ⟨rest, rfl⟩ := hunder
  cases rest with
  | nil => rwa [List.append_nil] at h
  | cons name rest =>
    obtain ⟨entries, h⟩ := h
    exact folderAt_of_at?_append h

/-- The place where a path begins is a folder. -/
theorem HasWorkingFolder.folderAt_startOf (h : tree.HasWorkingFolder) (path : String) :
    tree.FolderAt (startOf path) := by
  unfold startOf
  split
  · exact FolderAt.above h List.nil_prefix
  · exact h

/-- A free name is free in a folder. -/
theorem folderAt_of_resolve_free {links : Nat} {start steps above : List String} {name : String}
    (hstart : tree.FolderAt start) (h : tree.resolve links start steps = .free above name) :
    tree.FolderAt above := by
  fun_induction resolve tree links start steps with
  | case2 _ _ _ ih => exact ih hstart h
  | case3 _ _ _ _ ih => exact ih (hstart.above (List.dropLast_prefix _)) h
  | case5 =>
    cases h
    exact hstart
  | case7 _ _ _ _ _ _ _ entries hat ih => exact ih ⟨entries, hat⟩ h
  | case12 _ _ _ _ _ _ _ _ _ _ _ ih =>
    refine ih ?_ h
    split
    · exact hstart.above List.nil_prefix
    · exact hstart
  | _ => cases h

/-! ## §2 A new node in a folder -/

/-- What stands at a place: a file with its content or a link, but a folder without its entries. -/
def labelAt? (tree : FileTree α) (place : List String) : Option (FileTree α) :=
  (tree.at? place).map fun
    | .folder _ => .folder []
    | node => node

theorem labelAt?_cons (tree : FileTree α) (name : String) (rest : List String) :
    tree.labelAt? (name :: rest) = (tree.child? name).bind (labelAt? · rest) := by
  rw [labelAt?, at?, Option.map_bind]
  rfl

/-- A file or a link is found by its label. -/
theorem labelAt?_eq_some_iff {node : FileTree α} (h : node.isFolder = false) {place : List String} :
    tree.labelAt? place = some node ↔ tree.at? place = some node := by
  unfold labelAt?
  rcases tree.at? place with _ | (content | target | entries)
  · rfl
  · rfl
  · rfl
  · constructor <;> intro heq <;> cases heq <;> cases h

theorem kindAt?_eq_of_labelAt? {place : List String}
    (h : tree'.labelAt? place = tree.labelAt? place) :
    tree'.kindAt? place = tree.kindAt? place := by
  have hkind : ∀ t : FileTree α, t.kindAt? place = (t.labelAt? place).map kind := by
    intro t
    rw [kindAt?, labelAt?, Option.map_map]
    congr 1
    funext node
    cases node <;> rfl
  rw [hkind, hkind, h]

/-- What is put into a folder stands there, with everything below it. -/
theorem at?_put_append {above : List String} (habove : tree.FolderAt above) (name : String)
    (node : FileTree α) (more : List String) :
    (tree.put (above ++ [name]) node).at? (above ++ name :: more) = node.at? more := by
  induction above generalizing tree with
  | nil =>
    obtain ⟨entries, hentries⟩ := habove
    cases hentries
    rw [List.nil_append, List.nil_append, put, at?, child?_putEntry, if_pos rfl]
    rfl
  | cons first above ih =>
    obtain ⟨entries, habove⟩ := habove
    obtain ⟨child, hchild, hrest⟩ := Option.bind_eq_some_iff.mp habove
    obtain ⟨siblings, rfl⟩ := exists_folder_of_child? hchild
    rw [List.cons_append, List.cons_append, put_folder_of_child? hchild, at?, child?_putEntry,
      if_pos rfl]
    exact ih ⟨entries, hrest⟩

/-- What is put into a folder changes nothing but what stands there. -/
theorem labelAt?_put {above : List String} (habove : tree.FolderAt above) {name : String}
    (node : FileTree α) {place : List String} (hplace : ¬ above ++ [name] <+: place) :
    (tree.put (above ++ [name]) node).labelAt? place = tree.labelAt? place := by
  induction above generalizing tree place with
  | nil =>
    obtain ⟨entries, hentries⟩ := habove
    cases hentries
    cases place with
    | nil => rfl
    | cons first rest =>
      have hne : name ≠ first := by
        rintro rfl
        exact hplace ⟨rest, rfl⟩
      rw [List.nil_append, put, labelAt?_cons, labelAt?_cons, child?_putEntry, if_neg hne]
  | cons first above ih =>
    obtain ⟨entries, habove⟩ := habove
    obtain ⟨child, hchild, hrest⟩ := Option.bind_eq_some_iff.mp habove
    obtain ⟨siblings, rfl⟩ := exists_folder_of_child? hchild
    rw [List.cons_append, put_folder_of_child? hchild]
    cases place with
    | nil => rfl
    | cons other rest =>
      rw [labelAt?_cons, labelAt?_cons, child?_putEntry]
      by_cases hother : first = other
      · subst hother
        have hbelow : ¬ above ++ [name] <+: rest := fun hunder =>
          hplace (List.cons_prefix_cons.mpr ⟨rfl, hunder⟩)
        rw [if_pos rfl, hchild, Option.bind_some, Option.bind_some]
        exact ih ⟨entries, hrest⟩ hbelow
      · rw [if_neg hother]

/-- Below a name that nothing has there is nothing. -/
theorem at?_eq_none_below {above place : List String} (h : tree.at? above = none)
    (hunder : above <+: place) : tree.at? place = none := by
  obtain ⟨more, rfl⟩ := hunder
  rw [at?_append, h]
  rfl

/-- What is put under a free name leaves everything that is there as it is. -/
theorem labelAt?_put_new {above : List String} (habove : tree.FolderAt above) {name : String}
    (hfree : tree.at? (above ++ [name]) = none) (node : FileTree α) {place : List String}
    {old : FileTree α} (hold : tree.at? place = some old) :
    (tree.put (above ++ [name]) node).labelAt? place = tree.labelAt? place := by
  refine labelAt?_put habove node fun hunder => ?_
  rw [at?_eq_none_below hfree hunder] at hold
  cases hold

/-- The files and links elsewhere are the same ones. -/
theorem at?_put_iff {above : List String} (habove : tree.FolderAt above) {name : String}
    (node : FileTree α) {place : List String} (hplace : ¬ above ++ [name] <+: place)
    {other : FileTree α} (hother : other.isFolder = false) :
    (tree.put (above ++ [name]) node).at? place = some other ↔ tree.at? place = some other := by
  rw [← labelAt?_eq_some_iff hother, ← labelAt?_eq_some_iff hother, labelAt?_put habove node hplace]

/-! ## §3 Making folders -/

/-- The files and links of a tree are those of another one, and folders remain folders. -/
structure Extends (tree tree' : FileTree α) : Prop where
  others : ∀ place node, node.isFolder = false →
    (tree'.at? place = some node ↔ tree.at? place = some node)
  folders : ∀ place, tree.FolderAt place → tree'.FolderAt place

theorem Extends.refl (tree : FileTree α) : Extends tree tree :=
  ⟨fun _ _ _ => Iff.rfl, fun _ h => h⟩

theorem Extends.trans {tree'' : FileTree α} (h : Extends tree tree') (h' : Extends tree' tree'') :
    Extends tree tree'' where
  others place node hnode := (h'.others place node hnode).trans (h.others place node hnode)
  folders place hplace := h'.folders place (h.folders place hplace)

theorem folderAt_iff_labelAt? {place : List String} :
    tree.FolderAt place ↔ tree.labelAt? place = some (.folder []) := by
  unfold FolderAt labelAt?
  rcases tree.at? place with _ | (content | target | entries)
  · simp
  · simp
  · simp
  · simp

/-- A new folder takes nothing away. -/
theorem extends_put_folder {above : List String} {name : String} (habove : tree.FolderAt above)
    (hfree : tree.at? (above ++ [name]) = none) :
    Extends tree (tree.put (above ++ [name]) (.folder [])) where
  others place node hnode := by
    by_cases hunder : above ++ [name] <+: place
    · -- nothing was there, and there is nothing but a folder now
      have hold := at?_eq_none_below hfree hunder
      obtain ⟨more, rfl⟩ := hunder
      rw [hold, List.append_assoc, List.singleton_append, at?_put_append habove]
      constructor
      · intro h
        cases more with
        | nil =>
          cases h
          cases hnode
        | cons => cases h
      · intro h
        cases h
    · exact at?_put_iff habove (.folder []) hunder hnode
  folders place hplace := by
    obtain ⟨entries, hat⟩ := hplace
    rw [folderAt_iff_labelAt?, labelAt?_put_new habove hfree (.folder []) hat]
    exact folderAt_iff_labelAt?.mp ⟨entries, hat⟩

theorem extends_makeFolder? {start steps : List String} (hstart : tree.FolderAt start)
    (h : tree.makeFolder? start steps = some tree') : Extends tree tree' := by
  unfold makeFolder? at h
  split at h
  · split at h
    · cases h
      exact .refl tree
    · cases h
  · next above name way hfree hway =>
    split at h
    · cases h
      exact extends_put_folder (folderAt_of_resolve_free hstart hfree) (at?_of_resolve_free hfree).1
    · cases h
  · cases h

theorem extends_makeEach {start : List String} (hstart : tree.FolderAt start)
    (ways : List (List String)) : Extends tree (tree.makeEach start ways).1 := by
  induction ways generalizing tree with
  | nil => exact .refl tree
  | cons steps rest ih =>
    rw [makeEach]
    cases hmake : tree.makeFolder? start steps with
    | none => exact .refl tree
    | some next =>
      have hnext := extends_makeFolder? hstart hmake
      exact hnext.trans (ih (hnext.folders start hstart))

/-- The folders on a path take nothing away, whether all of them could be made or not. -/
theorem extends_makeFolders (hwork : tree.HasWorkingFolder) (path : String) :
    Extends tree (tree.makeFolders path).1 := by
  unfold makeFolders
  split
  · exact .refl tree
  · exact extends_makeEach (hwork.folderAt_startOf path) _

theorem extends_makeWay {tree : Files} (hwork : tree.HasWorkingFolder) (path : String) :
    Extends tree (tree.makeWay path).2 := by
  simp only [makeWay]
  split
  · exact .refl tree
  · exact extends_makeFolders hwork (Path.parent path)

/-! ## §4 Writing a file -/

/-- A path that led to a free name leads to what is put there. -/
theorem resolve_put_new {links : Nat} {start steps above : List String} {name : String}
    (hstart : tree.FolderAt start) (h : tree.resolve links start steps = .free above name)
    (content : α) :
    (tree.put (above ++ [name]) (.file content)).resolve links start steps =
      .taken (above ++ [name]) := by
  have habove := folderAt_of_resolve_free hstart h
  have hfree := (at?_of_resolve_free h).1
  -- what is on the way is there already, so it is as before
  have hkind : ∀ place old, tree.at? place = some old →
      (tree.put (above ++ [name]) (.file content)).kindAt? place = some old.kind := by
    intro place old hold
    rw [kindAt?_eq_of_labelAt? (labelAt?_put_new habove hfree _ hold), kindAt?, hold]
    rfl
  clear hstart
  fun_induction resolve tree links start steps with
  | case2 _ _ _ ih =>
    rw [resolve, if_pos rfl]
    exact ih h
  | case3 _ _ _ _ ih =>
    rw [resolve, if_neg (by decide), if_pos rfl]
    exact ih h
  | case5 _ place step hdot hdots husable hat =>
    obtain ⟨rfl, rfl⟩ := Place.free.inj h
    have hnew : (tree.put (place ++ [step]) (.file content)).kindAt? (place ++ [step]) =
        some .file := by
      rw [kindAt?, at?_put_append habove]
      rfl
    rw [resolve_name hdot hdots (by simpa using husable), hnew]
    rfl
  | case7 _ place step rest hdot hdots husable entries hat ih =>
    rw [resolve_name hdot hdots (by simpa using husable), hkind _ _ hat]
    exact ih h
  | case12 place step rest hdot hdots husable target hat links steps hsteps ih =>
    rw [resolve_name hdot hdots (by simpa using husable), hkind _ _ hat]
    simp only [kind, hsteps]
    exact ih h
  | _ => cases h

/-- A path leads to a file of the given content, and the other files and the links are those of the
tree before. -/
def Written (tree tree' : FileTree α) (path : String) (content : α) : Prop :=
  ∃ place, tree'.placeOf path = .taken place ∧ tree'.at? place = some (.file content) ∧
    ∀ other ≠ place, ∀ node, node.isFolder = false →
      (tree'.at? other = some node ↔ tree.at? other = some node)

/-- A file is no folder, so there is one above it. -/
theorem exists_above_of_file (hwork : tree.HasWorkingFolder) {place : List String} {old : α}
    (h : tree.at? place = some (.file old)) :
    ∃ above name, place = above ++ [name] ∧ tree.FolderAt above := by
  rcases List.eq_nil_or_concat place with rfl | ⟨above, name, rfl⟩
  · obtain ⟨entries, htop⟩ := hwork.above List.nil_prefix
    cases h.symm.trans htop
  · rw [List.concat_eq_append] at h ⊢
    exact ⟨above, name, rfl, folderAt_of_at?_append h⟩

/-- A file that is put into a folder where nothing has its name, or a file, is the only one that is
changed. -/
theorem at?_put_file_iff {above : List String} (habove : tree.FolderAt above) {name : String}
    (hbelow : ∀ first more, tree.at? (above ++ name :: first :: more) = none) (content : α)
    {place : List String} (hne : place ≠ above ++ [name]) {node : FileTree α}
    (hnode : node.isFolder = false) :
    (tree.put (above ++ [name]) (.file content)).at? place = some node ↔
      tree.at? place = some node := by
  by_cases hunder : above ++ [name] <+: place
  · obtain ⟨more, rfl⟩ := hunder
    cases more with
    | nil => exact absurd (List.append_nil _) hne
    | cons first more =>
      rw [List.append_assoc, List.singleton_append, at?_put_append habove, hbelow,
        at?_file_cons]
  · exact at?_put_iff habove (.file content) hunder hnode

theorem written_of_write? (hwork : tree.HasWorkingFolder) {path : String} {content : α}
    (h : tree.write? path content = some tree') : Written tree tree' path content := by
  unfold write? at h
  split at h
  · next place hplace =>
    split at h
    · next old hold =>
      cases h
      obtain ⟨above, name, rfl, habove⟩ := exists_above_of_file hwork hold
      have hbelow : ∀ first more, tree.at? (above ++ name :: first :: more) = none := by
        intro first more
        rw [List.append_cons, at?_append, hold]
        rfl
      refine ⟨above ++ [name], ?_, at?_put_self hold _, fun other hne node hnode =>
        at?_put_file_iff habove hbelow content hne hnode⟩
      rw [← hplace]
      unfold placeOf
      simp only [resolve_put_file hold]
    · cases h
  · next above name hplace =>
    cases h
    obtain ⟨steps, hsteps, hresolve⟩ : ∃ steps, Path.steps? path = some steps ∧
        tree.resolve linkLimit (startOf path) steps = .free above name := by
      unfold placeOf at hplace
      split at hplace
      · cases hplace
      · next steps hsteps => exact ⟨steps, hsteps, hplace⟩
    have hstart := hwork.folderAt_startOf path
    have habove := folderAt_of_resolve_free hstart hresolve
    have hfree := (at?_of_resolve_free hresolve).1
    refine ⟨above ++ [name], ?_, ?_, fun other hne node hnode =>
      at?_put_file_iff habove ?_ content hne hnode⟩
    · unfold placeOf
      simp only [hsteps, resolve_put_new hstart hresolve]
    · exact at?_put_append habove name (.file content) []
    · intro first more
      rw [List.append_cons, at?_append, hfree]
      rfl
  · cases h

/-- What is written is read. -/
theorem Written.read? {path : String} {content : α} (h : Written tree tree' path content) :
    tree'.read? path = some content := by
  obtain ⟨place, hplace, hat, -⟩ := h
  simp only [FileTree.read?, node?, hplace, hat, Option.bind_some, content?]

/-! ## §5 Saving -/

/-- **Saving writes one file.** A document that could be saved is in the file of its path, as its
text, and every other file is as it was. -/
theorem written_of_save {tree tree' : Files} (hwork : tree.HasWorkingFolder) {path text : String}
    {document : Json} (h : tree.save path document = (.ok text, tree')) :
    text = Schema.render document ∧ Written tree tree' path (.text text) := by
  simp only [save] at h
  have hway := extends_makeWay hwork path
  split at h
  · cases h
  · next made hmake =>
    rw [hmake] at hway
    split at h
    · next hwrite =>
      cases h
      obtain ⟨place, hplace, hat, hothers⟩ :=
        written_of_write? (hway.folders workingPlace hwork) hwrite
      exact ⟨rfl, place, hplace, hat, fun other hne node hnode =>
        (hothers other hne node hnode).trans (hway.others other node hnode)⟩
    · cases h

end MetadataCatalog.FileTree
