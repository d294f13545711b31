import MetadataCatalog.Storage.FileTree

/-!
# Overwriting a file

To put another content into a file changes nothing else in the tree: at every place stands a file, a
link or a folder as before (`kindAt?_put_file`), and so every path leads where it led before
(`resolve_put_file`). What is put back where it was, and what is erased where nothing is, changes
nothing at all.
-/

namespace MetadataCatalog.FileTree

variable {α : Type}

/-! ## §1 Entries -/

@[simp]
theorem child?_putEntry (name other : String) (node : FileTree α)
    (entries : List (String × FileTree α)) :
    child? other (.folder (putEntry name node entries)) =
      if name = other then some node else child? other (.folder entries) := by
  induction entries with
  | nil => by_cases h : name = other <;> simp [putEntry, child?, h]
  | cons e rest ih =>
    obtain ⟨first, old⟩ := e
    unfold putEntry
    simp only [child?] at ih ⊢
    by_cases hfirst : first = name
    · by_cases h : name = other <;> simp [hfirst, h]
    · rw [if_neg hfirst]
      by_cases h : first = other
      · -- the entry in front is another one, so it is not the one that was put
        have hname : name ≠ other := fun heq => hfirst (h.trans heq.symm)
        simp [h, hname]
      · simp only [List.find?_cons, h, decide_false, ih]

theorem putEntry_self {name : String} {node : FileTree α} {entries : List (String × FileTree α)}
    (h : child? name (.folder entries) = some node) : putEntry name node entries = entries := by
  induction entries with
  | nil => simp [child?] at h
  | cons e rest ih =>
    obtain ⟨first, old⟩ := e
    unfold putEntry
    by_cases hfirst : first = name
    · simp only [child?, List.find?_cons, hfirst, decide_true, Option.map_some,
        Option.some.injEq] at h
      simp [hfirst, h]
    · have hrest : child? name (.folder rest) = some node := by
        simpa [child?, List.find?_cons, hfirst] using h
      simp [hfirst, ih hrest]

/-- Only a folder has entries. -/
theorem exists_folder_of_child? {name : String} {tree node : FileTree α}
    (h : tree.child? name = some node) : ∃ entries, tree = .folder entries := by
  cases tree with
  | folder entries => exact ⟨entries, rfl⟩
  | file content => simp [child?] at h
  | link target => simp [child?] at h

/-! ## §2 Places -/

theorem at?_append (tree : FileTree α) (place more : List String) :
    tree.at? (place ++ more) = (tree.at? place).bind (at? more) := by
  induction place generalizing tree with
  | nil => rfl
  | cons name rest ih =>
    simp only [List.cons_append, at?]
    cases tree.child? name with
    | none => rfl
    | some child => exact ih child

theorem put_folder_of_child? {name : String} {entries : List (String × FileTree α)}
    {child : FileTree α} (h : child? name (.folder entries) = some child) (rest : List String)
    (node : FileTree α) :
    (FileTree.folder entries).put (name :: rest) node =
      .folder (putEntry name (child.put rest node) entries) := by
  rw [put, h, Option.getD_some]

theorem put_self {tree : FileTree α} {place : List String} {node : FileTree α}
    (h : tree.at? place = some node) : tree.put place node = tree := by
  induction place generalizing tree with
  | nil =>
    simp only [at?, Option.some.injEq] at h
    rw [h, put]
  | cons name rest ih =>
    obtain ⟨child, hchild, hrest⟩ := Option.bind_eq_some_iff.mp h
    obtain ⟨entries, rfl⟩ := exists_folder_of_child? hchild
    rw [put_folder_of_child? hchild, ih hrest, putEntry_self hchild]

theorem at?_put_self {tree old : FileTree α} {place : List String} (h : tree.at? place = some old)
    (node : FileTree α) : (tree.put place node).at? place = some node := by
  induction place generalizing tree with
  | nil => rfl
  | cons name rest ih =>
    obtain ⟨child, hchild, hrest⟩ := Option.bind_eq_some_iff.mp h
    obtain ⟨entries, rfl⟩ := exists_folder_of_child? hchild
    rw [put_folder_of_child? hchild, at?, child?_putEntry, if_pos rfl]
    exact ih hrest

/-- What is put at a place changes nothing that stands neither above nor below it. -/
theorem at?_put_of_apart {place other : List String} (hbelow : ¬ place <+: other)
    (habove : ¬ other <+: place) (tree node : FileTree α) :
    (tree.put place node).at? other = tree.at? other := by
  induction place generalizing tree other with
  | nil => exact absurd List.nil_prefix hbelow
  | cons name rest ih =>
    cases other with
    | nil => exact absurd List.nil_prefix habove
    | cons name' rest' =>
      cases tree with
      | file content => rfl
      | link target => rfl
      | folder entries =>
        rw [put, at?, at?, child?_putEntry]
        by_cases hname : name = name'
        · subst hname
          have hbelow' : ¬ rest <+: rest' := fun h => hbelow ((List.prefix_cons_inj name).mpr h)
          have habove' : ¬ rest' <+: rest := fun h => habove ((List.prefix_cons_inj name).mpr h)
          rw [if_pos rfl, Option.bind_some, ih hbelow' habove']
          cases child? name (.folder entries) with
          | some child => rfl
          | none =>
            cases rest' with
            | nil => exact absurd List.nil_prefix habove'
            | cons first more => rfl
        · rw [if_neg hname]

/-- Nothing stands below a file. -/
theorem at?_file_cons (content : α) (name : String) (rest : List String) :
    (file content : FileTree α).at? (name :: rest) = none := rfl

/-- Another content in a file leaves the other files as they are. -/
theorem at?_put_file_of_ne {tree : FileTree α} {place other : List String} {old kept : α}
    (h : tree.at? place = some (.file old)) (hother : tree.at? other = some (.file kept))
    (hne : other ≠ place) (new : α) :
    (tree.put place (.file new)).at? other = some (.file kept) := by
  induction place generalizing tree other with
  | nil =>
    -- the whole tree is the file, and so there is no other one
    simp only [at?, Option.some.injEq] at h
    subst h
    cases other with
    | nil => exact absurd rfl hne
    | cons name rest => cases (at?_file_cons old name rest).symm.trans hother
  | cons name rest ih =>
    obtain ⟨child, hchild, hrest⟩ := Option.bind_eq_some_iff.mp h
    obtain ⟨entries, rfl⟩ := exists_folder_of_child? hchild
    rw [put_folder_of_child? hchild]
    cases other with
    | nil => cases hother
    | cons name' rest' =>
      rw [at?, child?_putEntry]
      by_cases hname : name = name'
      · subst hname
        have hbelow : child.at? rest' = some (.file kept) := by
          rw [at?, hchild] at hother
          exact hother
        rw [if_pos rfl]
        exact ih hrest hbelow fun heq => hne (by rw [heq])
      · rw [if_neg hname]
        exact hother

/-- To erase a name that is not there changes nothing. -/
theorem erase_of_at?_none {tree : FileTree α} {above : List String} {name : String}
    (h : tree.at? (above ++ [name]) = none) : tree.erase (above ++ [name]) = tree := by
  unfold erase
  rw [List.dropLast_concat, List.getLast?_concat]
  split
  · next entries other habove hother =>
    cases hother
    -- no entry has the name, so none is left out
    have hnone : child? name (.folder entries) = none := by
      simpa [at?_append, habove, at?] using h
    have hall : entries.filter (·.1 ≠ name) = entries := by
      rw [List.filter_eq_self]
      intro e he
      simp only [child?, Option.map_eq_none_iff, List.find?_eq_none] at hnone
      simpa using hnone e he
    rw [hall, put_self habove]
  · rfl

/-! ## §3 Kinds -/

/-- What a node is, but not what a file or a folder holds. -/
inductive Kind where
  | file
  | link (target : String)
  | folder
  deriving DecidableEq, Repr

/-- The kind of a node. -/
def kind : FileTree α → Kind
  | .file _ => .file
  | .link target => .link target
  | .folder _ => .folder

/-- The kind of what stands at a place. -/
def kindAt? (tree : FileTree α) (place : List String) : Option Kind :=
  (tree.at? place).map kind

theorem kindAt?_cons (tree : FileTree α) (name : String) (rest : List String) :
    tree.kindAt? (name :: rest) = (tree.child? name).bind (kindAt? · rest) := by
  rw [kindAt?, at?, Option.map_bind]
  rfl

/-- Another content in a file leaves files, links and folders where they are. -/
theorem kindAt?_put_file {tree : FileTree α} {place : List String} {old : α}
    (h : tree.at? place = some (.file old)) (new : α) (p : List String) :
    (tree.put place (.file new)).kindAt? p = tree.kindAt? p := by
  induction place generalizing tree p with
  | nil =>
    simp only [at?, Option.some.injEq] at h
    subst h
    cases p <;> rfl
  | cons name rest ih =>
    obtain ⟨child, hchild, hrest⟩ := Option.bind_eq_some_iff.mp h
    obtain ⟨entries, rfl⟩ := exists_folder_of_child? hchild
    rw [put_folder_of_child? hchild]
    cases p with
    | nil => rfl
    | cons other more =>
      rw [kindAt?_cons, kindAt?_cons, child?_putEntry]
      by_cases hname : name = other
      · subst hname
        rw [if_pos rfl, hchild, Option.bind_some, Option.bind_some]
        exact ih hrest more
      · rw [if_neg hname]

/-! ## §4 Ways -/

/-- A step under a name goes by the kind of what has the name. -/
theorem resolve_name {step : String} (hdot : step ≠ ".") (hdots : step ≠ "..")
    (husable : Path.isUsable step = true) (tree : FileTree α) (links : Nat)
    (place rest : List String) :
    tree.resolve links place (step :: rest) =
      match tree.kindAt? (place ++ [step]) with
      | none => if rest = [] then .free place step else .nowhere
      | some .folder => tree.resolve links (place ++ [step]) rest
      | some .file => if rest = [] then .taken (place ++ [step]) else .nowhere
      | some (.link target) =>
        match links with
        | 0 => .nowhere
        | links + 1 =>
          match Path.steps? target with
          | none => .nowhere
          | some steps =>
            tree.resolve links (if Path.isAbsolute target then [] else place) (steps ++ rest) := by
  have husable' : ¬ (!Path.isUsable step) = true := by simp [husable]
  rw [resolve.eq_def]
  simp only [if_neg hdot, if_neg hdots, if_neg husable', kindAt?]
  cases tree.at? (place ++ [step]) with
  | none => rfl
  | some node => cases node <;> rfl

/-- Where a path leads depends only on the kinds of what stands on the way. -/
theorem resolve_congr {tree tree' : FileTree α} (h : ∀ p, tree'.kindAt? p = tree.kindAt? p)
    (links : Nat) (place steps : List String) :
    tree'.resolve links place steps = tree.resolve links place steps := by
  fun_induction resolve tree links place steps with
  | case1 => simp [resolve]
  | case2 links place rest ih => rw [resolve, if_pos rfl, ih]
  | case3 links place rest _ ih => rw [resolve, if_neg (by decide), if_pos rfl, ih]
  | case4 links place step rest hdot hdots husable =>
    rw [resolve, if_neg hdot, if_neg hdots, if_pos husable]
  | case5 links place step hdot hdots husable hat =>
    rw [resolve_name hdot hdots (by simpa using husable), h, kindAt?, hat]
    rfl
  | case6 links place step rest hdot hdots husable hat hrest =>
    rw [resolve_name hdot hdots (by simpa using husable), h, kindAt?, hat]
    exact if_neg hrest
  | case7 links place step rest hdot hdots husable entries hat ih =>
    rw [resolve_name hdot hdots (by simpa using husable), h, kindAt?, hat]
    exact ih
  | case8 links place step hdot hdots husable content hat =>
    rw [resolve_name hdot hdots (by simpa using husable), h, kindAt?, hat]
    rfl
  | case9 links place step rest hdot hdots husable content hat hrest =>
    rw [resolve_name hdot hdots (by simpa using husable), h, kindAt?, hat]
    exact if_neg hrest
  | case10 place step rest hdot hdots husable target hat =>
    rw [resolve_name hdot hdots (by simpa using husable), h, kindAt?, hat]
    rfl
  | case11 place step rest hdot hdots husable target hat links hsteps =>
    rw [resolve_name hdot hdots (by simpa using husable), h, kindAt?, hat]
    simp only [Option.map_some, kind, hsteps]
  | case12 place step rest hdot hdots husable target hat links steps hsteps ih =>
    rw [resolve_name hdot hdots (by simpa using husable), h, kindAt?, hat]
    simp only [Option.map_some, kind, hsteps]
    exact ih

/-- A free name is one that nothing has and that a file can have. -/
theorem at?_of_resolve_free {tree : FileTree α} {links : Nat} {start steps above : List String}
    {name : String} (h : tree.resolve links start steps = .free above name) :
    tree.at? (above ++ [name]) = none ∧ Path.isUsable name = true := by
  fun_induction resolve tree links start steps with
  | case2 _ _ _ ih => exact ih h
  | case3 _ _ _ _ ih => exact ih h
  | case5 _ place step _ _ husable hat =>
    cases h
    exact ⟨hat, by simpa using husable⟩
  | case7 _ _ _ _ _ _ _ _ _ ih => exact ih h
  | case12 _ _ _ _ _ _ _ _ _ _ _ ih => exact ih h
  | _ => cases h

/-- Another content in a file leaves every path where it leads. -/
theorem resolve_put_file {tree : FileTree α} {place : List String} {old : α}
    (h : tree.at? place = some (.file old)) (new : α) (links : Nat) (start steps : List String) :
    (tree.put place (.file new)).resolve links start steps = tree.resolve links start steps :=
  resolve_congr (kindAt?_put_file h new) links start steps

end MetadataCatalog.FileTree
