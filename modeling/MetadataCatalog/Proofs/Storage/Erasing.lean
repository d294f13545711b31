import MetadataCatalog.Catalog.SideFiles
import MetadataCatalog.Proofs.Storage.Saving

/-!
# Erasing files

To erase a name takes away what stands there and below it, and nothing else (`at?_erase_below`,
`labelAt?_erase`). A tree is thinned when at each place is what was there, or nothing, where a file
counts as the same while it begins as before (`Thins`). In a thinned tree no path leads anywhere
but where it led (`resolve_of_thins`), and so no side file becomes present (`isPresent_of_thins`).
-/

namespace MetadataCatalog.FileTree

/-! ## §1 Erasing -/

section Erasing

variable {α : Type} {tree : FileTree α}

theorem child?_filter (name other : String) (entries : List (String × FileTree α)) :
    child? other (.folder (entries.filter (·.1 ≠ name))) =
      if name = other then none else child? other (.folder entries) := by
  simp only [child?, List.find?_filter]
  by_cases h : name = other
  · subst h
    rw [if_pos rfl, Option.map_eq_none_iff, List.find?_eq_none]
    simp
  · rw [if_neg h]
    congr 2
    funext e
    -- the entry that is looked for is not the one that is left out
    by_cases he : e.1 = other
    · simp [he, Ne.symm h]
    · simp [he]

theorem erase_concat (tree : FileTree α) (above : List String) (name : String) :
    tree.erase (above ++ [name]) =
      match tree.at? above with
      | some (.folder entries) => tree.put above (.folder (entries.filter (·.1 ≠ name)))
      | _ => tree := by
  unfold erase
  rw [List.dropLast_concat, List.getLast?_concat]
  rcases tree.at? above with _ | (content | target | entries) <;> rfl

/-- The erased name and everything below it is gone, and what is elsewhere is as it was. -/
theorem labelAt?_put_filter {above : List String} {entries : List (String × FileTree α)}
    (habove : tree.at? above = some (.folder entries)) (name : String) (place : List String) :
    (tree.put above (.folder (entries.filter (·.1 ≠ name)))).labelAt? place =
      if above ++ [name] <+: place then none else tree.labelAt? place := by
  induction above generalizing tree place with
  | nil =>
    cases habove
    cases place with
    | nil => simp [put, labelAt?, at?]
    | cons first rest =>
      rw [put, labelAt?_cons, labelAt?_cons, child?_filter]
      by_cases h : name = first
      · simp [h, List.cons_prefix_cons]
      · simp [h, List.cons_prefix_cons]
  | cons first above ih =>
    obtain ⟨child, hchild, hrest⟩ := Option.bind_eq_some_iff.mp habove
    obtain ⟨siblings, rfl⟩ := exists_folder_of_child? hchild
    rw [put_folder_of_child? hchild]
    cases place with
    | nil => simp [labelAt?, at?]
    | cons other rest =>
      rw [labelAt?_cons, labelAt?_cons, child?_putEntry]
      by_cases hother : first = other
      · subst hother
        rw [if_pos rfl, hchild, Option.bind_some, Option.bind_some, ih hrest]
        simp [List.cons_prefix_cons]
      · simp [hother, List.cons_prefix_cons]

theorem labelAt?_erase (tree : FileTree α) (above : List String) (name : String)
    (place : List String) :
    (tree.erase (above ++ [name])).labelAt? place =
      if above ++ [name] <+: place then none else tree.labelAt? place := by
  rw [erase_concat]
  split
  · next entries habove => exact labelAt?_put_filter habove name place
  · next hnot =>
    -- nothing stands below what is no folder
    split
    · next hunder =>
      obtain ⟨more, rfl⟩ := hunder
      rw [labelAt?, Option.map_eq_none_iff, List.append_assoc, List.singleton_append]
      cases hat : tree.at? (above ++ name :: more) with
      | none => rfl
      | some node =>
        obtain ⟨entries, hentries⟩ := folderAt_of_at?_append hat
        exact absurd hentries (hnot entries)
    · rfl

/-- Files and links stay where they are, unless they are erased. -/
theorem at?_erase_iff {above place : List String} {name : String} {node : FileTree α}
    (hnode : node.isFolder = false) :
    (tree.erase (above ++ [name])).at? place = some node ↔
      ¬ above ++ [name] <+: place ∧ tree.at? place = some node := by
  rw [← labelAt?_eq_some_iff hnode, labelAt?_erase, ← labelAt?_eq_some_iff hnode]
  by_cases hunder : above ++ [name] <+: place
  · simp [hunder]
  · simp [hunder]

/-- Another content in a file leaves what is elsewhere as it is. -/
theorem labelAt?_put_file_of_ne {place other : List String} {old : α}
    (h : tree.at? place = some (.file old)) (hne : other ≠ place) (new : α) :
    (tree.put place (.file new)).labelAt? other = tree.labelAt? other := by
  have hkind := kindAt?_put_file h new other
  cases hother : tree.at? other with
  | none =>
    rw [kindAt?, kindAt?, hother, Option.map_none, Option.map_eq_none_iff] at hkind
    rw [labelAt?, labelAt?, hkind, hother]
  | some node =>
    cases node with
    | file kept =>
      rw [labelAt?, labelAt?, at?_put_file_of_ne h hother hne new, hother]
    | link target =>
      rw [kindAt?, kindAt?, hother] at hkind
      obtain ⟨node, hnode, hlink⟩ := Option.map_eq_some_iff.mp hkind
      cases node <;> cases hlink
      rw [labelAt?, labelAt?, hnode, hother]
    | folder entries =>
      rw [kindAt?, kindAt?, hother] at hkind
      obtain ⟨node, hnode, hfolder⟩ := Option.map_eq_some_iff.mp hkind
      cases node <;> cases hfolder
      rw [labelAt?, labelAt?, hnode, hother]
      rfl

/-- A path that leads somewhere leads there also when there is more in the tree. -/
theorem resolve_of_kindAt? {tree' : FileTree α}
    (h : ∀ place kind, tree'.kindAt? place = some kind → tree.kindAt? place = some kind)
    {links : Nat} {start steps target : List String}
    (htaken : tree'.resolve links start steps = .taken target) :
    tree.resolve links start steps = .taken target := by
  fun_induction resolve tree' links start steps with
  | case1 =>
    rw [resolve]
    exact htaken
  | case2 _ _ _ ih =>
    rw [resolve, if_pos rfl]
    exact ih htaken
  | case3 _ _ _ _ ih =>
    rw [resolve, if_neg (by decide), if_pos rfl]
    exact ih htaken
  | case7 _ place step rest hdot hdots husable entries hat ih =>
    have hkind := h (place ++ [step]) .folder (by rw [kindAt?, hat]; rfl)
    rw [resolve_name hdot hdots (by simpa using husable), hkind]
    exact ih htaken
  | case8 _ place step hdot hdots husable content hat =>
    have hkind := h (place ++ [step]) .file (by rw [kindAt?, hat]; rfl)
    rw [resolve_name hdot hdots (by simpa using husable), hkind]
    exact htaken
  | case12 place step rest hdot hdots husable link hat links steps hsteps ih =>
    have hkind := h (place ++ [step]) (.link link) (by rw [kindAt?, hat]; rfl)
    rw [resolve_name hdot hdots (by simpa using husable), hkind]
    simp only [hsteps]
    exact ih htaken
  | _ => cases htaken

end Erasing

/-! ## §2 Thinning -/

/-- What can be told of a node without opening it further: how a file begins, where a link leads. -/
inductive Face where
  | file (beginning : List UInt8)
  | link (target : String)
  | folder
  deriving DecidableEq, Repr

/-- What a node shows of itself. -/
def face : FileTree Content → Face
  | .file content => .file content.beginning
  | .link target => .link target
  | .folder _ => .folder

/-- What the node at a place shows of itself. -/
def faceAt? (tree : Files) (place : List String) : Option Face :=
  (tree.at? place).map face

/-- At each place is what was there, or nothing. -/
def Thins (tree tree' : Files) : Prop :=
  ∀ place, tree'.faceAt? place = none ∨ tree'.faceAt? place = tree.faceAt? place

variable {tree tree' : Files}

theorem faceAt?_eq_of_labelAt? {place : List String}
    (h : tree'.labelAt? place = tree.labelAt? place) : tree'.faceAt? place = tree.faceAt? place := by
  have hface : ∀ t : Files, t.faceAt? place = (t.labelAt? place).map face := by
    intro t
    rw [faceAt?, labelAt?, Option.map_map]
    congr 1
    funext node
    cases node <;> rfl
  rw [hface, hface, h]

/-- The kind of a node by its face. -/
def Face.kind : Face → Kind
  | .file _ => .file
  | .link target => .link target
  | .folder => .folder

theorem kindAt?_eq_map_faceAt? (tree : Files) (place : List String) :
    tree.kindAt? place = (tree.faceAt? place).map Face.kind := by
  rw [kindAt?, faceAt?, Option.map_map]
  congr 1
  funext node
  cases node <;> rfl

/-- A side file is present when its name leads to something other than an empty file. -/
theorem isPresent_iff {side : List String} :
    tree.isPresent side = true ↔
      ∃ place, tree.resolve linkLimit [] side = .taken place ∧
        ∃ shown, tree.faceAt? place = some shown ∧ shown ≠ .file [] := by
  unfold isPresent faceAt?
  cases tree.resolve linkLimit [] side with
  | free above name => simp
  | nowhere => simp
  | taken place =>
    rcases hat : tree.at? place with _ | (content | target | entries)
    · simp [hat]
    · simp [hat, face]
    · simp [hat, face]
    · simp [hat, face]

theorem Thins.refl (tree : Files) : Thins tree tree :=
  fun _ => Or.inr rfl

theorem Thins.trans {tree'' : Files} (h : Thins tree tree') (h' : Thins tree' tree'') :
    Thins tree tree'' := by
  intro place
  rcases h' place with hnone | hsame
  · exact Or.inl hnone
  · rw [hsame]
    exact h place

theorem thins_erase (tree : Files) (above : List String) (name : String) :
    Thins tree (tree.erase (above ++ [name])) := by
  intro place
  by_cases hunder : above ++ [name] <+: place
  · left
    have hlabel := labelAt?_erase tree above name place
    rw [if_pos hunder, labelAt?, Option.map_eq_none_iff] at hlabel
    rw [faceAt?, hlabel]
    rfl
  · right
    exact faceAt?_eq_of_labelAt? ((labelAt?_erase tree above name place).trans (if_neg hunder))

/-- A file may change while it begins as before. -/
theorem thins_put_file {place : List String} {old new : Content}
    (h : tree.at? place = some (.file old)) (hbegin : new.beginning = old.beginning) :
    Thins tree (tree.put place (.file new)) := by
  intro other
  right
  by_cases hother : other = place
  · subst hother
    rw [faceAt?, faceAt?, at?_put_self h, h, Option.map_some, Option.map_some, face, face, hbegin]
  · exact faceAt?_eq_of_labelAt? (labelAt?_put_file_of_ne h hother new)

theorem kindAt?_of_thins (h : Thins tree tree') {place : List String} {kind : Kind}
    (hkind : tree'.kindAt? place = some kind) : tree.kindAt? place = some kind := by
  rw [kindAt?_eq_map_faceAt?] at hkind ⊢
  rcases h place with hnone | hsame
  · rw [hnone] at hkind
    cases hkind
  · rwa [← hsame]

theorem resolve_of_thins (h : Thins tree tree') {links : Nat} {start steps target : List String}
    (htaken : tree'.resolve links start steps = .taken target) :
    tree.resolve links start steps = .taken target := by
  exact resolve_of_kindAt? (fun place kind => kindAt?_of_thins h) htaken

/-- No side file becomes present. -/
theorem isPresent_of_thins (h : Thins tree tree') {side : List String}
    (hpresent : tree'.isPresent side = true) : tree.isPresent side = true := by
  obtain ⟨place, htaken, shown, hshown, hne⟩ := isPresent_iff.mp hpresent
  refine isPresent_iff.mpr ⟨place, resolve_of_thins h htaken, shown, ?_, hne⟩
  rcases h place with hnone | hsame
  · rw [hnone] at hshown
    cases hshown
  · rwa [← hsame]

end MetadataCatalog.FileTree
