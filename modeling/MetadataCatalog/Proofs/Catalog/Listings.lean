import MetadataCatalog.Catalog.Ingest
import MetadataCatalog.Proofs.Storage.Descendants
import MetadataCatalog.Proofs.Text.ByteOrder

/-!
# Lists of files

A folder that can be read is listed with the paths of the files in it, and of the links to files, that
are reached through folders, in the order of their bytes, name by name (`listed_files`). What is left
out are files whose own path is not accepted: it may be too long although the path of the folder is
not (`file_left_out`), or may be one link longer than is allowed.
-/

namespace MetadataCatalog.FileTree

/-! ## §1 Folders that can be read -/

/-- A path leads to a folder with neat names, and every folder below it can be opened by its path. -/
structure ReadsFolder (tree : Files) (path : String) (place : List String)
    (entries : List (String × FileTree Content)) : Prop where
  leads : tree.placeOf path = .taken place
  stands : tree.at? place = some (.folder entries)
  neat : IsNeat (.folder entries)
  opens : ∀ {names below}, (FileTree.folder entries).at? names = some (.folder below) →
    tree.hasFolder (Path.below path names) = true

/-- Whether names lead from a place through folders to a file, or to a link that leads to a file. -/
structure ReachesFile (tree : Files) (place names : List String) : Prop where
  stands : (tree.at? (place ++ names)).isSome
  leads : ∃ file content, tree.resolve linkLimit place names = .taken file ∧
    tree.at? file = some (.file content)

variable {tree : Files} {path : String} {place : List String}
  {entries : List (String × FileTree Content)}

theorem hasFolder_eq_true_iff :
    tree.hasFolder path = true ↔ ∃ entries, tree.node? path = some (.folder entries) := by
  unfold hasFolder
  cases tree.node? path with
  | none => simp
  | some node => cases node <;> simp [isFolder]

theorem isSome_read?_iff :
    (tree.read? path).isSome ↔ ∃ content, tree.node? path = some (.file content) := by
  unfold read?
  cases tree.node? path with
  | none => simp
  | some node => cases node <;> simp [content?]

theorem names?_isSome (h : tree.hasFolder path = true) : (tree.names? path).isSome := by
  obtain ⟨entries, hnode⟩ := hasFolder_eq_true_iff.mp h
  rw [names?, hnode]
  rfl

/-- Nothing is found by a path that is too long. -/
theorem node?_eq_none_of_long (h : Path.pathLimit < path.utf8ByteSize) : tree.node? path = none := by
  have hnone : Path.steps? path = none := if_pos (.inr (.inr h))
  rw [node?, placeOf, hnone]

/-- The listing is refused where there is no folder, and only there. -/
theorem listFiles_refused_iff : tree.listFiles path = .error (.refused (.notAFolder path)) ↔
    tree.hasFolder path = false := by
  unfold listFiles below? hasFolder
  cases tree.node? path with
  | none => simp
  | some node =>
    cases node with
    | file content => simp [isFolder]
    | link target => simp [isFolder]
    | folder entries =>
      dsimp only
      split <;> simp [isFolder]

/-! ## §2 Files below a folder -/

section Read

variable (h : ReadsFolder tree path place entries)
include h

theorem ReadsFolder.node?_eq : tree.node? path = some (.folder entries) := by
  rw [node?, h.leads]
  exact h.stands

theorem ReadsFolder.ne_empty : path ≠ "" := by
  rintro rfl
  cases h.leads

/-- Names that lead to a file are names below the folder. -/
theorem ReadsFolder.exists_node_of_reaches {names : List String}
    (hreaches : tree.ReachesFile place names) :
    names ≠ [] ∧ ∃ node, (FileTree.folder entries).at? names = some node := by
  obtain ⟨node, hnode⟩ := Option.isSome_iff_exists.mp hreaches.stands
  rw [at?_append, h.stands, Option.bind_some] at hnode
  refine ⟨?_, node, hnode⟩
  rintro rfl
  -- without a name the folder itself is reached
  obtain ⟨file, content, hfile, hcontent⟩ := hreaches.leads
  rw [resolve] at hfile
  cases hfile
  cases h.stands.symm.trans hcontent

/-- A path below the folder leads where its names lead with the links that are left behind the path
of the folder. -/
theorem ReadsFolder.exists_left : ∃ left ≤ linkLimit, ∀ {names node}, names ≠ [] →
    (FileTree.folder entries).at? names = some node → ∀ file,
      tree.placeOf (Path.below path names) = .taken file ↔
        (Path.below path names).utf8ByteSize ≤ Path.pathLimit ∧
          tree.resolve left place names = .taken file := by
  obtain ⟨left, hle, hplace⟩ := exists_placeOf_below h.leads h.stands
  refine ⟨left, hle, fun {names node} hne hnode file => ?_⟩
  rw [hplace names hne fun name hname => (h.neat.names hnode name hname).1]
  split
  · next hlong => simp [Nat.not_le.mpr hlong]
  · next hshort => simp [Nat.le_of_not_lt hshort]

/-- The path of what is reached leads somewhere if it is short and enough links are left. -/
theorem ReadsFolder.exists_left_hasPath : ∃ left ≤ linkLimit, ∀ names,
    tree.ReachesFile place names → (tree.hasPath (Path.below path names) = true ↔
      (Path.below path names).utf8ByteSize ≤ Path.pathLimit ∧
        ∃ file, tree.resolve left place names = .taken file) := by
  obtain ⟨left, hle, hleft⟩ := h.exists_left
  refine ⟨left, hle, fun names hreaches => ?_⟩
  obtain ⟨hne, node, hnode⟩ := h.exists_node_of_reaches hreaches
  have hplace := hleft hne hnode
  rw [hasPath, node?]
  constructor
  · intro hpath
    split at hpath
    · next file hfile =>
      obtain ⟨hshort, hresolve⟩ := (hplace file).mp hfile
      exact ⟨hshort, file, hresolve⟩
    · cases hpath
  · rintro ⟨hshort, file, hresolve⟩
    -- with fewer links the file is reached that is reached with more
    obtain ⟨file', content, hfile', hcontent⟩ := hreaches.leads
    cases (resolve_taken_mono hresolve hle).symm.trans hfile'
    rw [(hplace file).mpr ⟨hshort, hresolve⟩]
    exact Option.isSome_iff_exists.mpr ⟨_, hcontent⟩

/-- There is a file to be read where a file is reached whose path leads somewhere. -/
theorem ReadsFolder.isSome_read?_below_iff {names : List String} {node : FileTree Content}
    (hne : names ≠ []) (hnode : (FileTree.folder entries).at? names = some node) :
    (tree.read? (Path.below path names)).isSome ↔
      tree.ReachesFile place names ∧ tree.hasPath (Path.below path names) = true := by
  obtain ⟨left, hle, hleft⟩ := h.exists_left
  have hplace := hleft hne hnode
  have hstands : (tree.at? (place ++ names)).isSome := by
    rw [at?_append, h.stands, Option.bind_some, hnode]
    rfl
  rw [isSome_read?_iff, hasPath, node?]
  constructor
  · rintro ⟨content, hcontent⟩
    split at hcontent
    · next file hfile =>
      have hresolve := resolve_taken_mono ((hplace file).mp hfile).2 hle
      exact ⟨⟨hstands, file, content, hresolve, hcontent⟩, by rw [hcontent]; rfl⟩
    · cases hcontent
  · rintro ⟨⟨-, file, content, hfile, hcontent⟩, hpath⟩
    split at hpath
    · next file' hfile' =>
      cases (resolve_taken_mono ((hplace file').mp hfile').2 hle).symm.trans hfile
      exact ⟨content, hcontent⟩
    · cases hpath

theorem ReadsFolder.listFiles_eq : tree.listFiles path =
    .ok (((descendants (.folder entries)).map fun x => Path.below path x.1).filter fun way =>
      (tree.read? way).isSome) := by
  have hopen : ∀ x ∈ (descendants (.folder entries)).map fun (names, node) =>
      (Path.below path names, node), ¬ (x.2.isFolder && (tree.names? x.1).isNone) = true := by
    intro x hx
    obtain ⟨⟨names, node⟩, hmem, rfl⟩ := List.mem_map.mp hx
    have hat := ((mem_descendants_iff h.neat).mp hmem).2
    cases node with
    | file content => simp [isFolder]
    | link target => simp [isFolder]
    | folder below =>
      obtain ⟨given, hgiven⟩ := Option.isSome_iff_exists.mp (names?_isSome (h.opens hat))
      simp [hgiven]
  rw [listFiles, below?, h.node?_eq]
  dsimp only
  rw [List.find?_eq_none.mpr hopen, List.map_map]
  rfl

theorem ReadsFolder.mem_listed_iff {way : String} :
    way ∈ (((descendants (.folder entries)).map fun x => Path.below path x.1).filter fun way =>
      (tree.read? way).isSome) ↔
      ∃ names, tree.ReachesFile place names ∧ way = Path.below path names ∧
        tree.hasPath way = true := by
  rw [List.mem_filter, List.mem_map]
  constructor
  · rintro ⟨⟨⟨names, node⟩, hmem, rfl⟩, hread⟩
    obtain ⟨hne, hnode⟩ := (mem_descendants_iff h.neat).mp hmem
    obtain ⟨hreaches, hpath⟩ := (h.isSome_read?_below_iff hne hnode).mp hread
    exact ⟨names, hreaches, rfl, hpath⟩
  · rintro ⟨names, hreaches, rfl, hpath⟩
    obtain ⟨hne, node, hnode⟩ := h.exists_node_of_reaches hreaches
    exact ⟨⟨(names, node), (mem_descendants_iff h.neat).mpr ⟨hne, hnode⟩, rfl⟩,
      (h.isSome_read?_below_iff hne hnode).mpr ⟨hreaches, hpath⟩⟩

/-- The paths come in the order of the bytes in their names. -/
theorem ReadsFolder.pairwise_listed :
    ((descendants (.folder entries)).map fun x => Path.below path x.1).Pairwise fun way way' =>
      (Path.components way).map Text.bytes < (Path.components way').map Text.bytes := by
  have hcomponents : ∀ x ∈ descendants (.folder entries), Path.components (Path.below path x.1) =
      Path.components path ++ x.1 := by
    intro x hx
    have hat := ((mem_descendants_iff h.neat).mp hx).2
    exact Path.components_below h.ne_empty fun name hname => (h.neat.names hat name hname).1
  refine List.pairwise_map.mpr ((pairwise_descendants h.neat).imp_of_mem fun hx hy hlt => ?_)
  rw [hcomponents _ hx, hcomponents _ hy, List.map_append, List.map_append]
  exact List.append_left_lt (Text.map_bytes_lt_of_lt hlt)

end Read

/-- A path is refused unless it leads to a folder. If all folders below can be read, the paths of those
files and links to files are listed that names lead to through folders and whose path can be followed;
they come in the order of the bytes in their names. So nothing is left out exactly if all these paths
can be followed: they may not be too long, and the links on the way to the folder leave enough for the
links in it. -/
theorem listed_files (tree : Files) (path : String) :
    (tree.listFiles path = .error (.refused (.notAFolder path)) ↔ tree.hasFolder path = false) ∧
    ∀ {place entries}, ReadsFolder tree path place entries →
      ∃ listed, tree.listFiles path = .ok listed ∧
        listed.Pairwise (fun way way' =>
          (Path.components way).map Text.bytes < (Path.components way').map Text.bytes) ∧
        (∀ way, way ∈ listed ↔ ∃ names, tree.ReachesFile place names ∧
          way = Path.below path names ∧ tree.hasPath way = true) ∧
        ((∀ names, tree.ReachesFile place names → Path.below path names ∈ listed) ↔
          ∀ names, tree.ReachesFile place names → tree.hasPath (Path.below path names) = true) ∧
        ∃ left ≤ linkLimit, ∀ names, tree.ReachesFile place names →
          (tree.hasPath (Path.below path names) = true ↔
            (Path.below path names).utf8ByteSize ≤ Path.pathLimit ∧
              ∃ file, tree.resolve left place names = .taken file) := by
  refine ⟨listFiles_refused_iff, fun {place entries} h => ?_⟩
  refine ⟨_, h.listFiles_eq, h.pairwise_listed.filter _, fun way => h.mem_listed_iff, ?_,
    h.exists_left_hasPath⟩
  constructor
  · intro hall names hreaches
    obtain ⟨-, -, -, hpath⟩ := h.mem_listed_iff.mp (hall names hreaches)
    exact hpath
  · intro hall names hreaches
    exact h.mem_listed_iff.mpr ⟨names, hreaches, rfl, hall names hreaches⟩

/-- A folder with a folder and a file, whose name goes on where that of the folder ends, and with
links to a file, to the folder and to nothing. -/
def linkedEntries : List (String × FileTree Content) :=
  [("s-1", .file (.text "1")), ("m", .link "s"), ("s", .folder [("x", .file (.text "2"))]),
    ("l", .link "s/x"), ("g", .link "none")]

/-- A working directory in which it stands. -/
def linkedFiles : Files := .folder [("tmp", .folder [("", .folder [("d", .folder linkedEntries)])])]

theorem resolve_linked (rest : List String) :
    linkedFiles.resolve linkLimit workingPlace ("d" :: rest) =
      linkedFiles.resolve linkLimit ["tmp", "", "d"] rest := by
  rw [resolve_name (by decide) (by decide) (by decide)]
  rfl

theorem resolve_link : linkedFiles.resolve linkLimit ["tmp", "", "d"] ["l"] =
    .taken ["tmp", "", "d", "s", "x"] := by
  have hsteps : Path.steps? "s/x" = some ["s", "x"] := by decide
  have hkind : linkedFiles.kindAt? (["tmp", "", "d"] ++ ["l"]) = some (.link "s/x") := rfl
  rw [resolve_name (by decide) (by decide) (by decide), hkind, linkLimit]
  simp only [hsteps, show Path.isAbsolute "s/x" = false by decide, Bool.false_eq_true, if_false,
    List.append_nil]
  -- the target goes through the folder to the file
  rw [resolve_name (by decide) (by decide) (by decide)]
  exact resolve_name (by decide) (by decide) (by decide) ..

theorem readsFolder_linked : ReadsFolder linkedFiles "d" ["tmp", "", "d"] linkedEntries := by
  have hneat : IsNeat (.folder linkedEntries) := by
    have hinner : IsNeat (.folder [("x", .file (.text "2"))] : FileTree Content) :=
      isNeat_folder (by decide) (by decide) (by simp [isNeat_file])
    exact isNeat_folder (by decide) (by decide)
      (by simp [linkedEntries, isNeat_file, isNeat_link, hinner])
  have hd : linkedFiles.placeOf "d" = .taken ["tmp", "", "d"] := by
    rw [placeOf, show Path.steps? "d" = some ["d"] by decide]
    exact (resolve_linked []).trans (resolve.eq_1 ..)
  have hs : linkedFiles.placeOf "d/s" = .taken ["tmp", "", "d", "s"] := by
    rw [placeOf, show Path.steps? "d/s" = some ["d", "s"] by decide]
    refine (resolve_linked ["s"]).trans ?_
    rw [resolve_name (by decide) (by decide) (by decide)]
    exact resolve.eq_1 ..
  refine ⟨hd, rfl, hneat, fun {names below} hat => ?_⟩
  cases names with
  | nil =>
    refine hasFolder_eq_true_iff.mpr ⟨linkedEntries, ?_⟩
    rw [Path.below, List.foldl_nil, node?, hd]
    rfl
  | cons name rest =>
    -- only one of the entries is a folder, and there is none in it
    obtain ⟨child, hchild, hrest⟩ := Option.bind_eq_some_iff.mp hat
    have hmem := mem_of_child? hchild
    simp only [linkedEntries, List.mem_cons, Prod.mk.injEq, List.not_mem_nil, or_false] at hmem
    rcases hmem with ⟨rfl, rfl⟩ | ⟨rfl, rfl⟩ | ⟨rfl, rfl⟩ | ⟨rfl, rfl⟩ | ⟨rfl, rfl⟩
    case inr.inr.inl =>
      cases rest with
      | nil =>
        refine hasFolder_eq_true_iff.mpr ⟨[("x", .file (.text "2"))], ?_⟩
        rw [show Path.below "d" ["s"] = "d/s" by decide, node?, hs]
        rfl
      | cons next more =>
        obtain ⟨file, hfile, hmore⟩ := Option.bind_eq_some_iff.mp hrest
        obtain ⟨-, rfl⟩ := Prod.mk.inj (List.mem_singleton.mp (mem_of_child? hfile))
        cases more <;> cases hmore
    all_goals cases rest <;> cases hrest

theorem listed_files_linked : ReadsFolder linkedFiles "d" ["tmp", "", "d"] linkedEntries ∧
    ∃ listed, linkedFiles.listFiles "d" = .ok listed ∧ "d/l" ∈ listed := by
  obtain ⟨listed, hlisted, -, hmem, -⟩ := (listed_files linkedFiles "d").2 readsFolder_linked
  have hreaches : linkedFiles.ReachesFile ["tmp", "", "d"] ["l"] :=
    ⟨rfl, _, .text "2", resolve_link, rfl⟩
  have hpath : linkedFiles.hasPath "d/l" = true := by
    have hplace := (resolve_linked ["l"]).trans resolve_link
    rw [hasPath, node?, placeOf, show Path.steps? "d/l" = some ["d", "l"] by decide]
    dsimp only
    rw [show startOf "d/l" = workingPlace by decide, hplace]
    rfl
  exact ⟨readsFolder_linked, listed, hlisted, (hmem "d/l").mpr ⟨["l"], hreaches, by decide, hpath⟩⟩

/-- A way to the folder `d` that leaves it and comes back so many times. -/
def detour : Nat → String
  | 0 => "d"
  | n + 1 => detour n ++ "/../d"

/-- A working directory with this folder, in which one file stands. -/
def detourFiles : Files :=
  .folder [("tmp", .folder [("", .folder
    [("d", .folder [("scan of the wafer", .file (.text "x"))])])])]

theorem cut_detour_succ (n : Nat) :
    Text.cut '/' (detour (n + 1)) = Text.cut '/' (detour n) ++ ["..", "d"] := by
  have hdots : detour (n + 1) = detour n ++ "/" ++ ".." ++ "/" ++ "d" := by
    rw [detour, String.append_assoc, String.append_assoc, String.append_assoc]
    rfl
  rw [hdots, Path.cut_slash_name _ (by decide), Path.cut_slash_name _ (by decide), List.append_assoc]
  rfl

theorem head?_detour (n : Nat) : (detour n).toList.head? = some 'd' := by
  induction n with
  | zero => decide
  | succ n ih => rw [detour, String.toList_append, List.head?_append, ih]; rfl

theorem utf8ByteSize_detour (n : Nat) : (detour n).utf8ByteSize = 5 * n + 1 := by
  induction n with
  | zero => decide
  | succ n ih =>
    have hmore : "/../d".utf8ByteSize = 5 := by decide
    rw [detour, String.utf8ByteSize_append, ih, hmore]
    omega

theorem steps?_detour {n : Nat} (h : 5 * n + 1 ≤ Path.pathLimit) :
    Path.steps? (detour n) = some (Text.cut '/' (detour n)) := by
  have hempty : detour n ≠ "" := fun heq => by
    have hhead := head?_detour n
    rw [heq] at hhead
    cases hhead
  have hnul : Char.ofNat 0 ∉ (detour n).toList := by
    clear h hempty
    induction n with
    | zero => decide
    | succ n ih =>
      rw [detour, String.toList_append, List.mem_append, not_or]
      exact ⟨ih, by decide⟩
  have hlast : (Text.cut '/' (detour n)).getLast? ≠ some "" := by
    cases n with
    | zero => decide
    | succ n =>
      rw [cut_detour_succ, List.getLast?_append]
      exact fun heq => absurd (Option.some.inj heq) (by decide)
  have hproper : (Text.cut '/' (detour n)).filter (· ≠ "") = Text.cut '/' (detour n) := by
    clear h hempty hnul hlast
    induction n with
    | zero => decide
    | succ n ih => rw [cut_detour_succ, List.filter_append, ih]; rfl
  have hsteps : Path.steps (detour n) = Text.cut '/' (detour n) := by
    rw [Path.steps, if_neg hlast, hproper]
  have hgood : ¬ (detour n = "" ∨ (detour n).toList.contains (Char.ofNat 0) = true ∨
      Path.pathLimit < (detour n).utf8ByteSize) := by
    rw [utf8ByteSize_detour, List.contains_iff_mem]
    exact fun hbad => hbad.elim hempty fun hbad => hbad.elim hnul (Nat.not_lt.mpr h)
  rw [Path.steps?, if_neg hgood, hsteps]

theorem resolve_detour (n : Nat) :
    detourFiles.resolve linkLimit workingPlace (Text.cut '/' (detour n)) =
      .taken ["tmp", "", "d"] := by
  have hd : ∀ links, detourFiles.resolve links workingPlace ["d"] = .taken ["tmp", "", "d"] := by
    intro links
    rw [resolve_name (by decide) (by decide) (by decide)]
    exact resolve.eq_1 ..
  induction n with
  | zero => exact hd linkLimit
  | succ n ih =>
    rw [cut_detour_succ]
    obtain ⟨left, -, hleft⟩ := exists_resolve_append (.inl rfl)
      ((congrArg _ (List.append_nil _)).trans ih) rfl
    rw [hleft, resolve, if_neg (by decide), if_pos rfl]
    exact hd left

/-- The entries of the folder. -/
def detourEntries : List (String × FileTree Content) :=
  [("scan of the wafer", .file (.text "x"))]

theorem readsFolder_detour {n : Nat} (h : 5 * n + 1 ≤ Path.pathLimit) :
    ReadsFolder detourFiles (detour n) ["tmp", "", "d"] detourEntries := by
  have hneat : IsNeat (.folder detourEntries) :=
    isNeat_folder (by decide) (by decide) (by simp [detourEntries, isNeat_file])
  have hstart : startOf (detour n) = workingPlace := by
    rw [startOf, Path.isAbsolute, head?_detour]
    rfl
  have hplace : detourFiles.placeOf (detour n) = .taken ["tmp", "", "d"] := by
    rw [placeOf, steps?_detour h, hstart]
    exact resolve_detour n
  refine ⟨hplace, rfl, hneat, fun {names below} hat => ?_⟩
  cases names with
  | nil =>
    refine hasFolder_eq_true_iff.mpr ⟨detourEntries, ?_⟩
    rw [Path.below, List.foldl_nil, node?, hplace]
    rfl
  | cons name rest =>
    have hmem := (mem_descendants_iff hneat).mpr ⟨List.cons_ne_nil name rest, hat⟩
    simp [descendants, descendantsOf, detourEntries] at hmem

theorem listFiles_detour {n : Nat} (h : 5 * n + 1 ≤ Path.pathLimit)
    (hlong : Path.pathLimit < 5 * n + 1 + "scan of the wafer".utf8ByteSize) :
    detourFiles.listFiles (detour n) = .ok [] := by
  have hlong : Path.pathLimit < (Path.below (detour n) ["scan of the wafer"]).utf8ByteSize := by
    rw [← utf8ByteSize_detour] at hlong
    exact Nat.lt_of_lt_of_le hlong (Path.le_utf8ByteSize_join _ _)
  have hnone : detourFiles.read? (Path.below (detour n) ["scan of the wafer"]) = none := by
    rw [read?, node?_eq_none_of_long hlong, Option.bind_none]
  have hwalk : descendants (.folder detourEntries) =
      [(["scan of the wafer"], .file (.text "x"))] := by
    simp [descendants, descendantsOf, detourEntries]
  rw [(readsFolder_detour h).listFiles_eq, hwalk, List.map_singleton, List.filter_singleton, hnone]
  rfl

/-- At the end of a long way to a folder, a file in it is left out. -/
theorem file_left_out : ReadsFolder detourFiles (detour 818) ["tmp", "", "d"] detourEntries ∧
    detourFiles.ReachesFile ["tmp", "", "d"] ["scan of the wafer"] ∧
    detourFiles.listFiles (detour 818) = .ok [] := by
  refine ⟨readsFolder_detour (by decide), ⟨rfl, ["tmp", "", "d", "scan of the wafer"], .text "x", ?_,
    rfl⟩, listFiles_detour (by decide) (by decide)⟩
  rw [resolve_name (by decide) (by decide) (by decide)]
  rfl

end MetadataCatalog.FileTree
