import MetadataCatalog.Proofs.Storage.Overwriting
import MetadataCatalog.Proofs.Text.Trimming
import Mathlib.Data.List.Nodup

/-!
# Entries of folders

How the names in a folder are taken apart and how paths lead to them. A name has an ending when it
has a dot that is not its first character, and is cut at the last one (`splitName_eq_some_iff`).
Where the path of a folder leads, the path of an entry leads to the entry (`node?_join_file`), or
nowhere if there is no entry of that name (`node?_join_eq_none`).
-/

namespace MetadataCatalog

namespace Path

/-! ## §1 Names -/

/-- A name that an entry of a folder can have, unless it is too long. -/
structure IsName (name : String) : Prop where
  slash : '/' ∉ name.toList
  nul : Char.ofNat 0 ∉ name.toList
  ne_empty : name ≠ ""
  ne_dot : name ≠ "."
  ne_dots : name ≠ ".."

instance (name : String) : Decidable (IsName name) :=
  decidable_of_iff ('/' ∉ name.toList ∧ Char.ofNat 0 ∉ name.toList ∧ name ≠ "" ∧ name ≠ "." ∧
      name ≠ "..")
    ⟨fun ⟨slash, nul, ne_empty, ne_dot, ne_dots⟩ => ⟨slash, nul, ne_empty, ne_dot, ne_dots⟩,
      fun h => ⟨h.slash, h.nul, h.ne_empty, h.ne_dot, h.ne_dots⟩⟩

theorem IsName.name? {name : String} (h : IsName name) : Path.name? name = some name := by
  unfold Path.name?
  rw [Text.cut_of_not_mem h.slash]
  have hkept : [name].filter (fun name => name ≠ "" ∧ name ≠ ".") = [name] := by
    simp [h.ne_empty, h.ne_dot]
  rw [hkept, List.getLast?_singleton]
  split
  · next heq => exact absurd (Option.some.inj heq) h.ne_dots
  · rfl

theorem exists_last_dot {name : String} (h : '.' ∈ name.toList) :
    ∃ stem ending, name = stem ++ "." ++ ending ∧ '.' ∉ ending.toList := by
  -- the first dot from behind
  obtain ⟨before, after, heq, hnot⟩ := List.eq_append_cons_of_mem (List.mem_reverse.mpr h)
  refine ⟨String.ofList after.reverse, String.ofList before.reverse, ?_, by simpa using hnot⟩
  have hrev := congrArg List.reverse heq
  rw [← String.toList_inj]
  simpa using hrev

theorem splitName_of_not_mem {name : String} (h : '.' ∉ name.toList) :
    splitName name = (name, none) := by
  unfold splitName
  rw [Text.cut_of_not_mem h]
  rfl

theorem splitName_of_dot {stem ending : String} (h : '.' ∉ ending.toList) (hstem : stem ≠ "") :
    splitName (stem ++ "." ++ ending) = (stem, some ending) := by
  have hjoin : Text.join "." (Text.cut '.' stem) = stem := Text.join_cut '.' stem
  have hcut : (Text.cut '.' (stem ++ "." ++ ending)).reverse =
      ending :: (Text.cut '.' stem).reverse := by
    rw [show "." = String.singleton '.' from rfl, Text.cut_append_sep, Text.cut_of_not_mem h,
      List.reverse_concat]
  unfold splitName
  rw [hcut]
  split
  · next heq => cases heq
  · next heq =>
    -- the stem has a piece
    have hnil : Text.cut '.' stem = [] := List.reverse_eq_nil_iff.mp (List.cons.inj heq).2
    exact absurd (List.map_eq_nil_iff.mp hnil) (Text.pieces_ne_nil '.' stem.toList)
  · next heq =>
    -- the only piece of the stem is empty, and so is the stem
    have hempty : Text.cut '.' stem = [""] := List.reverse_eq_iff.mp (List.cons.inj heq).2
    rw [hempty] at hjoin
    exact absurd hjoin.symm hstem
  · next heq =>
    obtain ⟨rfl, rfl⟩ := List.cons.inj heq
    rw [List.reverse_reverse, hjoin]

theorem splitName_of_first_dot {ending : String} (h : '.' ∉ ending.toList) :
    splitName ("." ++ ending) = ("." ++ ending, none) := by
  have hcut : Text.cut '.' ("." ++ ending) = ["", ending] := by
    have hcut := Text.cut_append_sep '.' "" ending
    rw [Text.cut_of_not_mem h, String.empty_append] at hcut
    exact hcut
  unfold splitName
  rw [hcut]
  rfl

/-- A name has an ending when it has a dot that is not its first character. -/
theorem splitName_eq_some_iff {name stem ending : String} :
    splitName name = (stem, some ending) ↔
      name = stem ++ "." ++ ending ∧ '.' ∉ ending.toList ∧ stem ≠ "" := by
  constructor
  · intro h
    by_cases hdot : '.' ∈ name.toList
    · obtain ⟨stem', ending', rfl, hnot⟩ := exists_last_dot hdot
      by_cases hstem : stem' = ""
      · subst hstem
        have hnone := splitName_of_first_dot hnot
        rw [String.empty_append] at h
        rw [hnone] at h
        cases h
      · rw [splitName_of_dot hnot hstem] at h
        cases h
        exact ⟨rfl, hnot, hstem⟩
    · rw [splitName_of_not_mem hdot] at h
      cases h
  · rintro ⟨rfl, hnot, hstem⟩
    exact splitName_of_dot hnot hstem

/-! ## §2 Steps -/

/-- The names of a path, without the dot that a slash at its end counts as. -/
def components (path : String) : List String := (Text.cut '/' path).filter (· ≠ "")

theorem exists_steps_eq (path : String) :
    ∃ last, steps path = components path ++ last ∧ (last = [] ∨ last = ["."]) := by
  by_cases hlast : (Text.cut '/' path).getLast? = some ""
  · exact ⟨["."], if_pos hlast, Or.inr rfl⟩
  · refine ⟨[], ?_, Or.inl rfl⟩
    rw [List.append_nil]
    exact if_neg hlast

theorem cut_slash_name (above : String) {name : String} (hslash : '/' ∉ name.toList) :
    Text.cut '/' (above ++ "/" ++ name) = Text.cut '/' above ++ [name] := by
  rw [show "/" = String.singleton '/' from rfl, Text.cut_append_sep, Text.cut_of_not_mem hslash]

/-- A name stands behind the folder and a slash, or behind the slash that is there already. -/
theorem exists_join_eq {folder : String} (hfolder : folder ≠ "") (name : String) :
    ∃ above, join folder name = above ++ "/" ++ name ∧ components above = components folder := by
  unfold join
  rw [if_neg hfolder]
  split
  · next hlast =>
    obtain ⟨above, habove⟩ := List.getLast?_eq_some_iff.mp hlast
    have hpath : folder = String.ofList above ++ "/" := by
      rw [← String.toList_inj]
      simpa using habove
    refine ⟨String.ofList above, by rw [← hpath], ?_⟩
    have hcut := cut_slash_name (String.ofList above) (show '/' ∉ "".toList by decide)
    rw [String.append_empty, ← hpath] at hcut
    rw [components, components, hcut, List.filter_append]
    simp
  · exact ⟨folder, rfl, rfl⟩

section Below

variable {folder : String} (hfolder : folder ≠ "")
include hfolder

theorem components_join {name : String} (hname : IsName name) :
    components (join folder name) = components folder ++ [name] := by
  obtain ⟨above, hjoin, habove⟩ := exists_join_eq hfolder name
  rw [hjoin, ← habove, components, components, cut_slash_name above hname.slash,
    List.filter_append]
  simp [hname.ne_empty]

/-- The steps to an entry of a folder are those to the folder and the name, but for the dot that a
slash at the end counts as. -/
theorem steps_join {name : String} (hname : IsName name) :
    steps (join folder name) = components folder ++ [name] := by
  have hlast : (Text.cut '/' (join folder name)).getLast? ≠ some "" := by
    obtain ⟨above, hjoin, -⟩ := exists_join_eq hfolder name
    rw [hjoin, cut_slash_name above hname.slash, List.getLast?_concat]
    exact fun h => hname.ne_empty (Option.some.inj h)
  rw [← components_join hfolder hname]
  exact if_neg hlast

theorem join_ne_empty (name : String) : join folder name ≠ "" := by
  unfold join
  rw [if_neg hfolder]
  split <;> simp [hfolder]

theorem isAbsolute_join (name : String) : isAbsolute (join folder name) = isAbsolute folder := by
  have hne : folder.toList ≠ [] := fun h => hfolder (String.toList_eq_nil_iff.mp h)
  obtain ⟨c, rest, hchars⟩ := List.exists_cons_of_ne_nil hne
  unfold join
  rw [if_neg hfolder]
  split <;> simp [isAbsolute, hchars]

theorem below_ne_empty (names : List String) : below folder names ≠ "" := by
  induction names generalizing folder with
  | nil => exact hfolder
  | cons name names ih => exact ih (join_ne_empty hfolder name)

theorem isAbsolute_below (names : List String) :
    isAbsolute (below folder names) = isAbsolute folder := by
  induction names generalizing folder with
  | nil => rfl
  | cons name names ih =>
    exact (ih (join_ne_empty hfolder name)).trans (isAbsolute_join hfolder name)

theorem components_below {names : List String} (hnames : ∀ name ∈ names, IsName name) :
    components (below folder names) = components folder ++ names := by
  induction names generalizing folder with
  | nil => rw [List.append_nil]; rfl
  | cons name names ih =>
    rw [List.forall_mem_cons] at hnames
    have hbelow := ih (join_ne_empty hfolder name) hnames.2
    rwa [components_join hfolder hnames.1, List.append_assoc] at hbelow

/-- And so it is with several names. -/
theorem steps_below {names : List String} (hne : names ≠ []) (hnames : ∀ name ∈ names, IsName name) :
    steps (below folder names) = components folder ++ names := by
  obtain ⟨front, last, rfl⟩ := (List.eq_nil_or_concat' names).resolve_left hne
  obtain ⟨hfront, hlast⟩ := List.forall_mem_append.mp hnames
  have hbelow : below folder (front ++ [last]) = join (below folder front) last := by
    rw [below, List.foldl_append]
    rfl
  rw [hbelow, steps_join (below_ne_empty hfolder front) (hlast last List.mem_cons_self),
    components_below hfolder hfront, List.append_assoc]

end Below

theorem mem_toList_join {folder name : String} {c : Char} (h : c ∈ (join folder name).toList) :
    c ∈ folder.toList ∨ c = '/' ∨ c ∈ name.toList := by
  unfold join at h
  split at h
  · exact Or.inr (Or.inr h)
  · split at h
    · rw [String.toList_append, List.mem_append] at h
      exact h.imp_right Or.inr
    · simpa [or_assoc] using h

theorem le_utf8ByteSize_join (folder name : String) :
    folder.utf8ByteSize + name.utf8ByteSize ≤ (join folder name).utf8ByteSize := by
  unfold join
  split
  · next hempty => simp [hempty]
  · split
    · rw [String.utf8ByteSize_append]
    · rw [String.utf8ByteSize_append, String.utf8ByteSize_append]
      omega

theorem nul_not_mem_below {folder : String} {names : List String}
    (hfolder : Char.ofNat 0 ∉ folder.toList) (hnames : ∀ name ∈ names, IsName name) :
    Char.ofNat 0 ∉ (below folder names).toList := by
  induction names generalizing folder with
  | nil => exact hfolder
  | cons name names ih =>
    rw [List.forall_mem_cons] at hnames
    refine ih (fun hmem => ?_) hnames.2
    rcases mem_toList_join hmem with hmem | heq | hmem
    · exact hfolder hmem
    · exact absurd heq (by decide)
    · exact hnames.1.nul hmem

/-- A path that can lead somewhere is made longer by names. -/
theorem steps?_below {folder : String} {way : List String} (h : steps? folder = some way) :
    folder ≠ "" ∧ (∃ last, way = components folder ++ last ∧ (last = [] ∨ last = ["."])) ∧
      ∀ names ≠ [], (∀ name ∈ names, IsName name) → steps? (below folder names) =
        if pathLimit < (below folder names).utf8ByteSize then none
        else some (components folder ++ names) := by
  unfold steps? at h
  split at h
  · cases h
  · next hgood =>
    simp only [not_or, List.contains_iff_mem] at hgood
    obtain ⟨hfolder, hnul, -⟩ := hgood
    have hway : steps folder = way := Option.some.inj h
    refine ⟨hfolder, hway ▸ exists_steps_eq folder, fun names hne hnames => ?_⟩
    unfold steps?
    simp only [below_ne_empty hfolder, List.contains_iff_mem, nul_not_mem_below hnul hnames, false_or,
      steps_below hfolder hne hnames]

end Path

/-! ## §3 Ways to entries -/

namespace FileTree

variable {α : Type}

theorem child?_of_mem {name : String} {node : FileTree α} {entries : List (String × FileTree α)}
    (hdistinct : (entries.map Prod.fst).Nodup) (h : (name, node) ∈ entries) :
    child? name (.folder entries) = some node := by
  show (entries.find? (·.1 = name)).map Prod.snd = some node
  cases hfind : entries.find? (·.1 = name) with
  | none => simpa using List.find?_eq_none.mp hfind _ h
  | some e =>
    -- the entry that is found has the name, and so it is this one
    have hname : e.1 = name := by simpa using List.find?_some hfind
    have he : e = (name, node) :=
      List.inj_on_of_nodup_map hdistinct (List.mem_of_find?_eq_some hfind) h hname
    rw [he]
    rfl

theorem child?_eq_none {name : String} {entries : List (String × FileTree α)}
    (h : name ∉ entries.map Prod.fst) : child? name (.folder entries) = none := by
  simp only [child?, Option.map_eq_none_iff, List.find?_eq_none, decide_eq_true_eq]
  intro e he heq
  exact h (List.mem_map.mpr ⟨e, he, heq⟩)

/-- Where steps lead into a folder, further steps go on from there. -/
theorem exists_resolve_append {tree : FileTree α} {links : Nat} {start base last place : List String}
    {entries : List (String × FileTree α)} (hlast : last = [] ∨ last = ["."])
    (h : tree.resolve links start (base ++ last) = .taken place)
    (hplace : tree.at? place = some (.folder entries)) :
    ∃ left ≤ links, ∀ more,
      tree.resolve links start (base ++ more) = tree.resolve left place more := by
  -- where the way stops before its end, it does not lead into a folder; else it is the same with
  -- the further steps behind it
  fun_induction resolve tree links start base with
  | case1 links start =>
    refine ⟨links, le_rfl, fun more => ?_⟩
    -- nothing is left of the way, but perhaps a dot
    rcases hlast with rfl | rfl <;> simp [resolve] at h <;> simp [h]
  | case2 links place rest ih =>
    rw [List.cons_append, resolve, if_pos rfl] at h
    obtain ⟨left, hle, hleft⟩ := ih h
    refine ⟨left, hle, fun more => ?_⟩
    rw [List.cons_append, resolve, if_pos rfl]
    exact hleft more
  | case3 links place rest _ ih =>
    rw [List.cons_append, resolve, if_neg (by decide), if_pos rfl] at h
    obtain ⟨left, hle, hleft⟩ := ih h
    refine ⟨left, hle, fun more => ?_⟩
    rw [List.cons_append, resolve, if_neg (by decide), if_pos rfl]
    exact hleft more
  | case4 links place step rest hdot hdots husable =>
    rw [List.cons_append, resolve, if_neg hdot, if_neg hdots, if_pos husable] at h
    cases h
  | case5 links place step hdot hdots husable hat =>
    rw [List.cons_append, resolve_name hdot hdots (by simpa using husable), kindAt?, hat] at h
    dsimp only [Option.map_none] at h
    split at h <;> cases h
  | case6 links place step rest hdot hdots husable hat hrest =>
    rw [List.cons_append, resolve_name hdot hdots (by simpa using husable), kindAt?, hat] at h
    dsimp only [Option.map_none] at h
    split at h <;> cases h
  | case7 links place step rest hdot hdots husable entries' hat ih =>
    rw [List.cons_append, resolve_name hdot hdots (by simpa using husable), kindAt?, hat] at h
    obtain ⟨left, hle, hleft⟩ := ih h
    refine ⟨left, hle, fun more => ?_⟩
    rw [List.cons_append, resolve_name hdot hdots (by simpa using husable), kindAt?, hat]
    exact hleft more
  | case8 links place' step hdot hdots husable content hat =>
    rw [List.cons_append, resolve_name hdot hdots (by simpa using husable), kindAt?, hat] at h
    dsimp only [Option.map_some, kind] at h
    split at h
    · -- the way ends at a file, and no folder stands there
      cases h
      cases hat.symm.trans hplace
    · cases h
  | case9 links place step rest hdot hdots husable content hat hrest =>
    rw [List.cons_append, resolve_name hdot hdots (by simpa using husable), kindAt?, hat] at h
    simp [kind, hrest] at h
  | case10 place step rest hdot hdots husable target hat =>
    rw [List.cons_append, resolve_name hdot hdots (by simpa using husable), kindAt?, hat] at h
    cases h
  | case11 place step rest hdot hdots husable target hat links hsteps =>
    rw [List.cons_append, resolve_name hdot hdots (by simpa using husable), kindAt?, hat] at h
    simp [kind, hsteps] at h
  | case12 place step rest hdot hdots husable target hat links steps hsteps ih =>
    rw [List.cons_append, resolve_name hdot hdots (by simpa using husable), kindAt?, hat] at h
    simp only [Option.map_some, kind, hsteps] at h
    rw [← List.append_assoc] at h
    obtain ⟨left, hle, hleft⟩ := ih h
    refine ⟨left, Nat.le_succ_of_le hle, fun more => ?_⟩
    rw [List.cons_append, resolve_name hdot hdots (by simpa using husable), kindAt?, hat]
    simp only [Option.map_some, kind, hsteps]
    rw [← List.append_assoc]
    exact hleft more

/-- What can be reached is reached with more links, too. -/
theorem resolve_taken_mono {tree : FileTree α} {links more : Nat} {place steps taken : List String}
    (h : tree.resolve links place steps = .taken taken) (hle : links ≤ more) :
    tree.resolve more place steps = .taken taken := by
  fun_induction resolve tree links place steps generalizing more with
  | case1 =>
    rw [resolve]
    exact h
  | case2 links place rest ih =>
    rw [resolve, if_pos rfl]
    exact ih h hle
  | case3 links place rest _ ih =>
    rw [resolve, if_neg (by decide), if_pos rfl]
    exact ih h hle
  | case7 links place step rest hdot hdots husable entries hat ih =>
    rw [resolve_name hdot hdots (by simpa using husable), kindAt?, hat]
    exact ih h hle
  | case8 links place step hdot hdots husable content hat =>
    rw [resolve_name hdot hdots (by simpa using husable), kindAt?, hat]
    exact h
  | case12 place step rest hdot hdots husable target hat links steps hsteps ih =>
    obtain ⟨more, rfl⟩ := Nat.exists_eq_add_of_le' (Nat.le_trans (Nat.le_add_left 1 links) hle)
    rw [resolve_name hdot hdots (by simpa using husable), kindAt?, hat]
    simp only [Option.map_some, kind, hsteps]
    exact ih h (Nat.le_of_succ_le_succ hle)
  | _ => cases h

/-- The path of names below a folder leads where the names lead from the place of the folder, unless
it is too long. -/
theorem exists_placeOf_below {tree : FileTree α} {folder : String} {place : List String}
    {entries : List (String × FileTree α)} (hplace : tree.placeOf folder = .taken place)
    (hfolder : tree.at? place = some (.folder entries)) :
    ∃ left ≤ linkLimit, ∀ names ≠ [], (∀ name ∈ names, Path.IsName name) →
      tree.placeOf (Path.below folder names) =
        if Path.pathLimit < (Path.below folder names).utf8ByteSize then .nowhere
        else tree.resolve left place names := by
  unfold placeOf at hplace
  cases hway : Path.steps? folder with
  | none =>
    rw [hway] at hplace
    cases hplace
  | some way =>
    rw [hway] at hplace
    obtain ⟨hempty, ⟨last, rfl, hlast⟩, hbelow⟩ := Path.steps?_below hway
    obtain ⟨left, hle, hleft⟩ := exists_resolve_append hlast hplace hfolder
    refine ⟨left, hle, fun names hne hnames => ?_⟩
    unfold placeOf
    rw [hbelow names hne hnames, startOf, Path.isAbsolute_below hempty, ← startOf, ← hleft]
    by_cases hlong : Path.pathLimit < (Path.below folder names).utf8ByteSize
    · simp only [if_pos hlong]
    · simp only [if_neg hlong]

/-- The path of a name in a folder leads where the name leads from the place of the folder, unless
it is too long. -/
theorem exists_placeOf_join {tree : FileTree α} {folder name : String}
    {entries : List (String × FileTree α)} (hfolder : tree.node? folder = some (.folder entries))
    (hname : Path.IsName name) :
    ∃ place links, tree.at? place = some (.folder entries) ∧
      tree.placeOf (Path.join folder name) =
        if Path.pathLimit < (Path.join folder name).utf8ByteSize then .nowhere
        else tree.resolve links place [name] := by
  unfold node? at hfolder
  split at hfolder
  · next place hplace =>
    obtain ⟨left, -, hleft⟩ := exists_placeOf_below hplace hfolder
    exact ⟨place, left, hfolder, hleft [name] (List.cons_ne_nil name []) (by simpa using hname)⟩
  · cases hfolder

/-- A file in a folder is found by its name. -/
theorem node?_join_file {tree : FileTree α} {folder name : String} {content : α}
    {entries : List (String × FileTree α)} (hfolder : tree.node? folder = some (.folder entries))
    (hname : Path.IsName name) (husable : Path.isUsable name = true)
    (hchild : child? name (.folder entries) = some (.file content)) :
    tree.node? (Path.join folder name) =
      if Path.pathLimit < (Path.join folder name).utf8ByteSize then none
      else some (.file content) := by
  obtain ⟨place, links, hplace, hway⟩ := exists_placeOf_join hfolder hname
  have hat : tree.at? (place ++ [name]) = some (.file content) := by
    rw [at?_append, hplace]
    simp [at?, hchild]
  have hfound : tree.resolve links place [name] = .taken (place ++ [name]) := by
    rw [resolve_name hname.ne_dot hname.ne_dots husable, kindAt?, hat]
    rfl
  unfold node?
  rw [hway, hfound]
  by_cases hlong : Path.pathLimit < (Path.join folder name).utf8ByteSize
  · rw [if_pos hlong, if_pos hlong]
  · rw [if_neg hlong, if_neg hlong]
    exact hat

/-- Nothing is found by a name that no entry of a folder has. -/
theorem node?_join_eq_none {tree : FileTree α} {folder name : String}
    {entries : List (String × FileTree α)} (hfolder : tree.node? folder = some (.folder entries))
    (hname : Path.IsName name) (hchild : child? name (.folder entries) = none) :
    tree.node? (Path.join folder name) = none := by
  obtain ⟨place, links, hplace, hway⟩ := exists_placeOf_join hfolder hname
  have hat : tree.at? (place ++ [name]) = none := by
    rw [at?_append, hplace]
    simp [at?, hchild]
  have hnot : ∀ p, tree.resolve links place [name] ≠ .taken p := by
    intro p
    rw [resolve, if_neg hname.ne_dot, if_neg hname.ne_dots, hat]
    split <;> simp
  unfold node?
  rw [hway]
  split
  · next p hp =>
    split at hp
    · cases hp
    · exact absurd hp (hnot p)
  · rfl

end FileTree

end MetadataCatalog
