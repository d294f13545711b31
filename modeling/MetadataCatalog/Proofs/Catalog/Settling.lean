import MetadataCatalog.Proofs.Storage.Erasing

/-!
# Settled databases

Whoever asks a database first tidies up beside it. Once that has been done nothing is left to do:
the files are quiet (`Quiet`), and to tidy up again changes nothing (`settle?_of_quiet`). Whoever
may change the database has quiet files after one time (`quiet_of_settle?`), others after two times
(`quiet_of_settle?_twice`).

What is done to one database touches its own file and its own side files only, and adds nothing
(`Tidies`). So the files of another database stay quiet (`Quiet.of_tidies`).
-/

namespace MetadataCatalog

/-! ## §1 Places -/

namespace SideFile

variable {side side' : SideFile}

/-- The endings differ in their last three characters, so the name tells what was added to what. -/
theorem name_inj {a b : String} (h : side.name a = side'.name b) : side = side' ∧ a = b := by
  have hchars : side.ending.toList.reverse ++ a.toList.reverse =
      side'.ending.toList.reverse ++ b.toList.reverse := by
    have := congrArg (List.reverse ∘ String.toList) h
    simpa [name] using this
  have hside : side = side' := by
    cases side <;> cases side' <;> first | rfl | simp [ending] at hchars
  subst hside
  exact ⟨rfl, String.toList_inj.mp (List.reverse_inj.mp (List.append_cancel_left hchars))⟩

theorem place_concat (side : SideFile) (above : List String) (name : String) :
    side.place (above ++ [name]) = above ++ [side.name name] := by
  rw [place, List.dropLast_concat, List.getLast?_concat, Option.getD_some]

theorem place_inj {place place' : List String} (h : place ≠ []) (h' : place' ≠ [])
    (heq : side.place place = side'.place place') : side = side' ∧ place = place' := by
  rcases List.eq_nil_or_concat place with rfl | ⟨above, name, rfl⟩
  · exact absurd rfl h
  rcases List.eq_nil_or_concat place' with rfl | ⟨above', name', rfl⟩
  · exact absurd rfl h'
  rw [List.concat_eq_append, List.concat_eq_append] at heq ⊢
  rw [place_concat, place_concat] at heq
  obtain ⟨habove, hname⟩ := List.append_inj' heq rfl
  obtain ⟨hside, rfl⟩ := name_inj (List.cons.inj hname).1
  exact ⟨hside, by rw [habove]⟩

theorem place_ne (h : side ≠ side') (place : List String) :
    side.place place ≠ side'.place place := by
  intro heq
  have hname := (List.append_inj' heq rfl).2
  exact h (name_inj (List.cons.inj hname).1).1

/-- A side file stands beside the database, not above it. -/
theorem not_place_le (side : SideFile) (place : List String) : ¬ side.place place <+: place := by
  intro hunder
  rcases List.eq_nil_or_concat place with rfl | ⟨above, name, rfl⟩
  · simp [SideFile.place] at hunder
  · rw [List.concat_eq_append, place_concat] at hunder
    have hname := List.append_inj' (hunder.eq_of_length (by simp)) rfl
    have hlength := congrArg String.length (List.cons.inj hname.2).1
    have hending : 0 < side.ending.length := by cases side <;> decide
    rw [SideFile.name, String.length_append] at hlength
    omega

theorem place_ne_self (side : SideFile) (place : List String) : side.place place ≠ place :=
  fun heq => not_place_le side place (heq.symm ▸ List.prefix_refl place)

end SideFile

namespace FileTree

variable {tree tree' : Files} {place : List String} {access : Access} {db : Database}

/-- A place below the top under names without dots, as paths of databases lead to. -/
structure IsDotless (place : List String) : Prop where
  ne_nil : place ≠ []
  dotless : ∀ name ∈ place, name ≠ "." ∧ name ≠ ".."

theorem IsDotless.side (h : IsDotless place) (side : SideFile) :
    IsDotless (side.place place) where
  ne_nil := by simp [SideFile.place]
  dotless := by
    intro name hname
    rcases List.mem_append.mp hname with habove | hlast
    · exact h.dotless name (List.dropLast_subset _ habove)
    · -- the ending is longer than two dots
      have hlength : 2 < name.length := by
        have hending : 2 < side.ending.length := by cases side <;> decide
        rw [List.mem_singleton.mp hlast, SideFile.name, String.length_append]
        omega
      exact ⟨fun h => absurd (h ▸ hlength) (by decide), fun h => absurd (h ▸ hlength) (by decide)⟩

/-- The folder of a file. -/
theorem folderAt_dropLast {content : Content} (hne : place ≠ [])
    (h : tree.at? place = some (.file content)) : tree.FolderAt place.dropLast := by
  rcases List.eq_nil_or_concat place with rfl | ⟨above, name, rfl⟩
  · exact absurd rfl hne
  · rw [List.concat_eq_append] at h ⊢
    rw [List.dropLast_concat]
    exact folderAt_of_at?_append h

/-- Names without dots that end with a free name lead nowhere else. -/
theorem resolve_ne_taken {links : Nat} {start steps : List String} (hsteps : IsDotless steps)
    (habove : tree.FolderAt (start ++ steps.dropLast)) (hnone : tree.at? (start ++ steps) = none)
    (target : List String) : tree.resolve links start steps ≠ .taken target := by
  induction steps generalizing start with
  | nil => exact absurd rfl hsteps.ne_nil
  | cons step rest ih =>
    obtain ⟨hdot, hdots⟩ := hsteps.dotless step List.mem_cons_self
    by_cases husable : Path.isUsable step = true
    · rw [resolve_name hdot hdots husable]
      cases rest with
      | nil =>
        rw [kindAt?, hnone]
        simp
      | cons next rest =>
        -- on the way are folders only
        rw [List.dropLast_cons_cons, List.append_cons] at habove
        obtain ⟨entries, hentries⟩ := habove.above (List.prefix_append _ _)
        rw [kindAt?, hentries]
        refine ih ⟨List.cons_ne_nil _ _, fun name hname => hsteps.dotless name ?_⟩ habove ?_
        · exact List.mem_cons_of_mem _ hname
        · rw [← List.append_cons]
          exact hnone
    · rw [resolve, if_neg hdot, if_neg hdots, if_pos (by simpa using husable)]
      intro h
      cases h

/-- A side file that is not there is not present. -/
theorem isPresent_of_at?_eq_none (hplace : IsDotless place) (habove : tree.FolderAt place.dropLast)
    {side : SideFile} (hnone : tree.at? (side.place place) = none) :
    tree.isPresent (side.place place) = false := by
  rw [← Bool.not_eq_true, isPresent_iff]
  rintro ⟨target, htaken, -⟩
  refine resolve_ne_taken (hplace.side side) ?_ hnone target htaken
  rw [SideFile.place, List.dropLast_concat]
  exact habove

/-- What has been erased is not present. -/
theorem isPresent_erase (hplace : IsDotless place) (habove : tree.FolderAt place.dropLast)
    (side : SideFile) : (tree.erase (side.place place)).isPresent (side.place place) = false := by
  refine isPresent_of_at?_eq_none hplace ?_ ?_
  · rw [folderAt_iff_labelAt?] at habove ⊢
    rw [SideFile.place, labelAt?_erase, if_neg ?_, habove]
    intro hunder
    have hlength := hunder.length_le
    rw [List.length_append, List.length_singleton] at hlength
    omega
  · have hlabel := labelAt?_erase tree place.dropLast (side.name (place.getLast?.getD ""))
      (side.place place)
    rwa [SideFile.place, if_pos (List.prefix_refl _), labelAt?, Option.map_eq_none_iff] at hlabel

/-! ## §2 Quiet files -/

/-- The journal of the database at a place is not there, or it is finished. -/
def JournalQuiet (tree : Files) (place : List String) : Prop :=
  tree.isPresent (SideFile.journal.place place) = false ∨
    ∃ content : Content, tree.at? (SideFile.journal.place place) = some (.file content) ∧
      content.beginning.head? = some 0

/-- The log of the database at a place is not there; or it has to stay, and its index is there. -/
def LogQuiet (tree : Files) (place : List String) (access : Access) : Prop :=
  tree.isPresent (SideFile.log.place place) = false ∨
    access.mayChange = false ∧ access.locked = true ∧
      (∃ content : Content, tree.at? (SideFile.log.place place) = some (.file content)) ∧
      tree.at? (SideFile.index.place place) = some (.file indexContent)

/-- Nothing has to be tidied up beside the database at a place. -/
structure Quiet (tree : Files) (place : List String) (access : Access) : Prop where
  journal : tree.JournalQuiet place
  log : tree.LogQuiet place access

/-- The tree after the journal and then the log has been looked at. -/
def settle? (place : List String) (access : Access) (tree : Files) : Option Files :=
  (settleJournal? place access tree).bind (settleLog? place access)

/-- A file in which a database has been written is not short. -/
theorem isShortAt?_of_database (h : tree.at? place = some (.file (.database db))) :
    tree.isShortAt? place = some false :=
  isShortAt?_of_file h

/-- Beside a database the journal is quiet, or it is erased by who may change the database. -/
theorem settleJournal?_of_long (hlong : tree.isShortAt? place = some false)
    (h : settleJournal? place access tree = some tree') :
    (tree.JournalQuiet place ∧ tree' = tree) ∨
      (access.mayChange = true ∧ tree.hasRoom (SideFile.journal.place place) = true ∧
        tree' = tree.erase (SideFile.journal.place place)) := by
  unfold settleJournal? at h
  simp only [hlong, Option.bind_eq_bind, Option.bind_some] at h
  cases hpresent : tree.isPresent (SideFile.journal.place place) with
  | false =>
    rw [hpresent] at h
    cases h
    exact Or.inl ⟨Or.inl hpresent, rfl⟩
  | true =>
    simp only [hpresent, Bool.not_true, Bool.false_eq_true, if_false] at h
    rcases hat : tree.at? (SideFile.journal.place place) with _ | (content | target | entries) <;>
      simp only [hat] at h
    · cases h
    · by_cases hzero : content.beginning.head? = some 0
      · rw [if_pos hzero] at h
        cases h
        exact Or.inl ⟨Or.inr ⟨content, hat, hzero⟩, rfl⟩
      · rw [if_neg hzero] at h
        cases hchange : access.mayChange with
        | false => simp [hchange] at h
        | true =>
          simp only [hchange, if_true, Option.some.injEq] at h
          exact Or.inr ⟨rfl, by rw [hasRoom, hat]; rfl, h.symm⟩
    · cases h
    · cases h

theorem settleJournal?_of_quiet (hlong : tree.isShortAt? place = some false)
    (h : tree.JournalQuiet place) (access : Access) :
    settleJournal? place access tree = some tree := by
  unfold settleJournal?
  simp only [hlong, Option.bind_eq_bind, Option.bind_some]
  rcases h with habsent | ⟨content, hat, hzero⟩
  · simp [habsent]
  · simp [hat, hzero]

/-- Beside a database the log is not there, or it is a file: who may change the database erases it
with its index, and others see to it that it has an index. -/
theorem settleLog?_of_long (hlong : tree.isShortAt? place = some false)
    (h : settleLog? place access tree = some tree') :
    (tree.isPresent (SideFile.log.place place) = false ∧ tree' = tree) ∨
      ((∃ content : Content, tree.at? (SideFile.log.place place) = some (.file content)) ∧
        access.locked = true ∧ tree.hasRoom (SideFile.index.place place) = true ∧
        ((access.mayChange = true ∧
            tree' = (tree.erase (SideFile.log.place place)).erase (SideFile.index.place place)) ∨
          (access.mayChange = false ∧
            tree' = tree.put (SideFile.index.place place) (.file indexContent)))) := by
  unfold settleLog? at h
  simp only [hlong, Option.bind_eq_bind, Option.bind_some] at h
  cases hpresent : tree.isPresent (SideFile.log.place place) with
  | false =>
    rw [hpresent] at h
    cases h
    exact Or.inl ⟨rfl, rfl⟩
  | true =>
    simp only [hpresent, Bool.not_true, Bool.false_eq_true, if_false] at h
    rcases hat : tree.at? (SideFile.log.place place) with _ | (content | target | entries) <;>
      simp only [hat] at h
    · cases h
    · right
      by_cases hroom : (!access.locked || !tree.hasRoom (SideFile.index.place place)) = true
      · rw [if_pos hroom] at h
        cases h
      · rw [if_neg hroom] at h
        simp only [Bool.or_eq_true, Bool.not_eq_true', not_or, Bool.not_eq_false] at hroom
        refine ⟨⟨content, rfl⟩, hroom.1, hroom.2, ?_⟩
        cases hchange : access.mayChange with
        | false =>
          simp only [hchange, Bool.false_eq_true, if_false, Option.some.injEq] at h
          exact Or.inr ⟨rfl, h.symm⟩
        | true =>
          simp only [hchange, if_true, Option.some.injEq] at h
          exact Or.inl ⟨rfl, h.symm⟩
    · cases h
    · cases h

theorem settleLog?_of_quiet (hlong : tree.isShortAt? place = some false)
    (h : tree.LogQuiet place access) : settleLog? place access tree = some tree := by
  unfold settleLog?
  simp only [hlong, Option.bind_eq_bind, Option.bind_some]
  rcases h with habsent | ⟨hchange, hlocked, ⟨content, hlog⟩, hindex⟩
  · simp [habsent]
  · have hroom : tree.hasRoom (SideFile.index.place place) = true := by
      rw [hasRoom, hindex]
      rfl
    simp [hlog, hlocked, hroom, hchange, put_self hindex]

/-- **Quiet files** stay as they are. -/
theorem settle?_of_quiet (h : tree.at? place = some (.file (.database db)))
    (hquiet : tree.Quiet place access) : settle? place access tree = some tree := by
  have hlong := isShortAt?_of_database h
  rw [settle?, settleJournal?_of_quiet hlong hquiet.journal, Option.bind_some,
    settleLog?_of_quiet hlong hquiet.log]

/-! ## §3 Tidying up -/

/-- The file at the place of a database stays where it is, of its side files some are erased, and
everything else is as before. -/
structure Tidies (place : List String) (tree tree' : Files) : Prop where
  thins : Thins tree tree'
  kept : ∀ other content, other ≠ place → (∀ side : SideFile, other ≠ side.place place) →
    tree.at? other = some (.file content) → tree'.at? other = some (.file content)
  old : ∀ other content, other ≠ place →
    tree'.at? other = some (.file content) → tree.at? other = some (.file content)

theorem Tidies.refl (place : List String) (tree : Files) : Tidies place tree tree :=
  ⟨Thins.refl tree, fun _ _ _ _ h => h, fun _ _ _ h => h⟩

theorem Tidies.trans {tree'' : Files} (h : Tidies place tree tree')
    (h' : Tidies place tree' tree'') : Tidies place tree tree'' where
  thins := h.thins.trans h'.thins
  kept other content hne hside hat :=
    h'.kept other content hne hside (h.kept other content hne hside hat)
  old other content hne hat := h.old other content hne (h'.old other content hne hat)

/-- Where there is room for a file, nothing stands below it. -/
theorem not_prefix_of_hasRoom {side other : List String} {content : Content}
    (hroom : tree.hasRoom side = true) (hother : tree.at? other = some (.file content))
    (hne : other ≠ side) : ¬ side <+: other := by
  rintro ⟨more, rfl⟩
  rw [hasRoom] at hroom
  rw [at?_append] at hother
  rcases hat : tree.at? side with _ | (content' | target | entries) <;>
    simp only [hat, isFile, Bool.false_eq_true] at hroom hother
  · cases hother
  · cases more with
    | nil => exact hne (List.append_nil side)
    | cons name rest => cases hother

theorem tidies_erase {side : SideFile} (hroom : tree.hasRoom (side.place place) = true) :
    Tidies place tree (tree.erase (side.place place)) where
  thins := thins_erase tree _ _
  kept _ _ _ hside hat :=
    (at?_erase_iff rfl).mpr ⟨not_prefix_of_hasRoom hroom hat (hside side), hat⟩
  old _ _ _ hat := ((at?_erase_iff rfl).mp hat).2

theorem tidies_put {old : Database} (h : tree.at? place = some (.file (.database old)))
    (new : Database) : Tidies place tree (tree.put place (.file (.database new))) where
  thins := thins_put_file h rfl
  kept _ _ hne _ hat := at?_put_file_of_ne h hat hne _
  old _ _ hne hat := by
    rwa [← labelAt?_eq_some_iff rfl, labelAt?_put_file_of_ne h hne, labelAt?_eq_some_iff rfl] at hat

/-- Erasing a side file leaves the file of the database. -/
theorem at?_erase_side (side : SideFile) {content : Content} :
    (tree.erase (side.place place)).at? place = some (.file content) ↔
      tree.at? place = some (.file content) :=
  (at?_erase_iff rfl).trans (and_iff_right (SideFile.not_place_le side place))

theorem isPresent_eq_false_of_thins (h : Thins tree tree') {side : List String}
    (habsent : tree.isPresent side = false) : tree'.isPresent side = false := by
  rw [← Bool.not_eq_true] at habsent ⊢
  exact fun hpresent => habsent (isPresent_of_thins h hpresent)

theorem hasRoom_of_file {side : List String} {content : Content}
    (h : tree.at? side = some (.file content)) : tree.hasRoom side = true := by
  rw [hasRoom, h]
  rfl

theorem hasRoom_iff {side : List String} :
    tree.hasRoom side = true ↔ ∀ kind, tree.kindAt? side = some kind → kind = .file := by
  rw [hasRoom, kindAt?]
  rcases tree.at? side with _ | (content | target | entries) <;> simp [kind, isFile]

/-- Where there was room for a file there is still room. -/
theorem hasRoom_of_thins (h : Thins tree tree') {side : List String}
    (hroom : tree.hasRoom side = true) : tree'.hasRoom side = true := by
  rw [hasRoom_iff] at hroom ⊢
  exact fun kind hkind => hroom kind (kindAt?_of_thins h hkind)

/-- A quiet journal stays quiet when another side file is erased. -/
theorem JournalQuiet.erase (h : tree.JournalQuiet place) {side : SideFile} (hside : side ≠ .journal)
    (hroom : tree.hasRoom (side.place place) = true) :
    (tree.erase (side.place place)).JournalQuiet place := by
  rcases h with habsent | ⟨content, hat, hzero⟩
  · exact Or.inl (isPresent_eq_false_of_thins (thins_erase tree _ _) habsent)
  · refine Or.inr ⟨content, (at?_erase_iff rfl).mpr ⟨?_, hat⟩, hzero⟩
    exact not_prefix_of_hasRoom hroom hat (SideFile.place_ne hside.symm place)

/-- **Tidied up once** by who may change the database, the files are quiet. -/
theorem quiet_of_settle? (hplace : IsDotless place)
    (hdb : tree.at? place = some (.file (.database db))) (hchange : access.mayChange = true)
    (h : settle? place access tree = some tree') :
    tree'.at? place = some (.file (.database db)) ∧ tree'.JournalQuiet place ∧
      tree'.isPresent (SideFile.log.place place) = false ∧ Tidies place tree tree' := by
  obtain ⟨tree₁, hjournal, hlog⟩ := Option.bind_eq_some_iff.mp h
  -- after the first look the journal is quiet
  obtain ⟨hdb₁, hquiet, htidies⟩ : tree₁.at? place = some (.file (.database db)) ∧
      tree₁.JournalQuiet place ∧ Tidies place tree tree₁ := by
    rcases settleJournal?_of_long (isShortAt?_of_database hdb) hjournal with
      ⟨hquiet, rfl⟩ | ⟨-, hroom, rfl⟩
    · exact ⟨hdb, hquiet, .refl place _⟩
    · refine ⟨(at?_erase_side .journal).mpr hdb, Or.inl ?_, tidies_erase hroom⟩
      exact isPresent_erase hplace (folderAt_dropLast hplace.ne_nil hdb) .journal
  -- and it stays so when the log is erased
  rcases settleLog?_of_long (isShortAt?_of_database hdb₁) hlog with
    ⟨habsent, rfl⟩ | ⟨⟨content, hfile⟩, -, hroom, ⟨-, rfl⟩ | ⟨hnot, -⟩⟩
  · exact ⟨hdb₁, hquiet, habsent, htidies⟩
  · have hlogRoom := hasRoom_of_file hfile
    have hindexRoom := hasRoom_of_thins (tidies_erase hlogRoom).thins hroom
    have habsent := isPresent_erase hplace (folderAt_dropLast hplace.ne_nil hdb₁) .log
    exact ⟨(at?_erase_side .index).mpr ((at?_erase_side .log).mpr hdb₁),
      (hquiet.erase (by decide) hlogRoom).erase (by decide) hindexRoom,
      isPresent_eq_false_of_thins (thins_erase _ _ _) habsent,
      htidies.trans ((tidies_erase hlogRoom).trans (tidies_erase hindexRoom))⟩
  · rw [hchange] at hnot
    cases hnot

/-- The index that is made for a log is a file of its own. -/
theorem at?_put_index {content : Content}
    (hlog : tree.at? (SideFile.log.place place) = some (.file content))
    (hroom : tree.hasRoom (SideFile.index.place place) = true) (new : Content)
    {other : List String} {node : FileTree Content} (hnode : node.isFolder = false)
    (hne : other ≠ SideFile.index.place place) :
    (tree.put (SideFile.index.place place) (.file new)).at? other = some node ↔
      tree.at? other = some node := by
  refine at?_put_file_iff (folderAt_of_at?_append hlog) (fun first more => ?_) new hne hnode
  rw [hasRoom] at hroom
  rw [List.append_cons, at?_append]
  rw [SideFile.place] at hroom
  rcases hat : tree.at? (place.dropLast ++ [SideFile.index.name (place.getLast?.getD "")]) with
    _ | (content' | target | entries)
  · rfl
  · rfl
  · simp [hat, isFile] at hroom
  · simp [hat, isFile] at hroom

theorem at?_put_index_self {content : Content}
    (hlog : tree.at? (SideFile.log.place place) = some (.file content)) (new : Content) :
    (tree.put (SideFile.index.place place) (.file new)).at? (SideFile.index.place place) =
      some (.file new) :=
  at?_put_append (folderAt_of_at?_append hlog) _ _ []

/-- **Tidied up twice** by who may not change the database, the files are quiet, and the second time
nothing was left to do. -/
theorem quiet_of_settle?_twice {tree'' : Files}
    (hdb : tree.at? place = some (.file (.database db))) (hchange : access.mayChange = false)
    (h : settle? place access tree = some tree') (h' : settle? place access tree' = some tree'') :
    tree'.at? place = some (.file (.database db)) ∧ tree'.Quiet place access ∧ tree'' = tree' := by
  obtain ⟨tree₁, hjournal, hlog⟩ := Option.bind_eq_some_iff.mp h
  obtain ⟨tree₂, hjournal', hlog'⟩ := Option.bind_eq_some_iff.mp h'
  have hnot : ¬ access.mayChange = true := by simp [hchange]
  -- the journal is not erased, so it was quiet
  obtain ⟨hquiet, rfl⟩ : tree.JournalQuiet place ∧ tree₁ = tree := by
    rcases settleJournal?_of_long (isShortAt?_of_database hdb) hjournal with hsame | ⟨htrue, -⟩
    · exact hsame
    · exact absurd htrue hnot
  rcases settleLog?_of_long (isShortAt?_of_database hdb) hlog with
    ⟨habsent, rfl⟩ | ⟨⟨content, hfile⟩, hlocked, hroom, ⟨htrue, -⟩ | ⟨-, rfl⟩⟩
  · have hall : tree'.Quiet place access := ⟨hquiet, Or.inl habsent⟩
    exact ⟨hdb, hall, Option.some.inj (h'.symm.trans (settle?_of_quiet hdb hall))⟩
  · exact absurd htrue hnot
  · -- the index is there from the first time on
    have hdb' : (tree₁.put (SideFile.index.place place) (.file indexContent)).at? place =
        some (.file (.database db)) :=
      (at?_put_index hfile hroom _ rfl (SideFile.place_ne_self .index place).symm).mpr hdb
    have hfile' : (tree₁.put (SideFile.index.place place) (.file indexContent)).at?
        (SideFile.log.place place) = some (.file content) :=
      (at?_put_index hfile hroom _ rfl (SideFile.place_ne (by decide) place)).mpr hfile
    obtain ⟨hquiet', -⟩ : (tree₁.put (SideFile.index.place place) (.file indexContent)).JournalQuiet
        place ∧ tree₂ = tree₁.put (SideFile.index.place place) (.file indexContent) := by
      rcases settleJournal?_of_long (isShortAt?_of_database hdb') hjournal' with hsame | ⟨htrue, -⟩
      · exact hsame
      · exact absurd htrue hnot
    have hall : (tree₁.put (SideFile.index.place place) (.file indexContent)).Quiet place access :=
      ⟨hquiet', Or.inr ⟨hchange, hlocked, ⟨content, hfile'⟩, at?_put_index_self hfile _⟩⟩
    exact ⟨hdb', hall, Option.some.inj (h'.symm.trans (settle?_of_quiet hdb' hall))⟩

/-- **A change** of the database leaves neither a journal nor a log. -/
theorem tidies_writeDatabase? (hplace : IsDotless place) {old : Database}
    (hold : tree.at? place = some (.file (.database old)))
    (habsent : tree.isPresent (SideFile.log.place place) = false) {new : Database}
    (h : writeDatabase? place new tree = some tree') :
    tree'.at? place = some (.file (.database new)) ∧
      tree'.isPresent (SideFile.journal.place place) = false ∧
      tree'.isPresent (SideFile.log.place place) = false ∧ Tidies place tree tree' := by
  simp only [writeDatabase?] at h
  split at h
  · next hroom =>
    cases h
    have hput := tidies_put hold new
    have hnew := at?_put_self hold (.file (.database new))
    have herase := tidies_erase (hasRoom_of_thins hput.thins (Bool.and_eq_true_iff.mp hroom).1)
    refine ⟨(at?_erase_side .journal).mpr hnew, ?_, ?_, hput.trans herase⟩
    · exact isPresent_erase hplace (folderAt_dropLast hplace.ne_nil hnew) .journal
    · exact isPresent_eq_false_of_thins (hput.thins.trans herase.thins) habsent
  · cases h

/-- **The files of another database** stay quiet. -/
theorem Quiet.of_tidies {other : List String} {old new : Database} (h : tree.Quiet other access)
    (htidies : Tidies place tree tree') (hplace : place ≠ []) (hother : other ≠ [])
    (hne : other ≠ place) (hold : tree.at? place = some (.file (.database old)))
    (hnew : tree'.at? place = some (.file (.database new))) : tree'.Quiet other access := by
  -- a side file of the one database is not a side file of the other one
  have hkept : ∀ (side : SideFile) (content : Content),
      tree.at? (side.place other) = some (.file content) → side.place other ≠ place →
        tree'.at? (side.place other) = some (.file content) := by
    intro side content hat hside
    refine htidies.kept _ content hside (fun side' heq => hne ?_) hat
    exact (SideFile.place_inj hother hplace heq).2
  constructor
  · rcases h.journal with habsent | ⟨content, hat, hzero⟩
    · exact Or.inl (isPresent_eq_false_of_thins htidies.thins habsent)
    · refine Or.inr ⟨content, hkept .journal content hat ?_, hzero⟩
      -- no database begins with zero
      intro heq
      rw [heq, hold] at hat
      cases hat
      have hfirst : (Content.database old).beginning.head? = some 83 := rfl
      exact absurd (hfirst.symm.trans hzero) (by decide)
  · rcases h.log with habsent | ⟨hchange, hlocked, ⟨content, hlog⟩, hindex⟩
    · exact Or.inl (isPresent_eq_false_of_thins htidies.thins habsent)
    · refine Or.inr ⟨hchange, hlocked, ?_, hkept .index _ hindex ?_⟩
      · by_cases heq : SideFile.log.place other = place
        · exact ⟨_, heq ▸ hnew⟩
        · exact ⟨content, hkept .log content hlog heq⟩
      · intro heq
        rw [heq, hold] at hindex
        cases hindex

/-! ## §4 Looking without changing -/

/-- The file at a place is the same one, and no database has come into being anywhere. -/
structure Preserves (place : List String) (tree tree' : Files) : Prop where
  own : ∀ content, tree'.at? place = some (.file content) ↔ tree.at? place = some (.file content)
  databases : ∀ other db, tree'.at? other = some (.file (.database db)) →
    tree.at? other = some (.file (.database db))

theorem Preserves.refl (place : List String) (tree : Files) : Preserves place tree tree :=
  ⟨fun _ => Iff.rfl, fun _ _ h => h⟩

theorem Preserves.trans {tree'' : Files} (h : Preserves place tree tree')
    (h' : Preserves place tree' tree'') : Preserves place tree tree'' where
  own content := (h'.own content).trans (h.own content)
  databases other db hat := h.databases other db (h'.databases other db hat)

theorem preserves_erase (tree : Files) (place : List String) (side : SideFile) :
    Preserves place tree (tree.erase (side.place place)) where
  own _ := at?_erase_side side
  databases _ _ hat := ((at?_erase_iff rfl).mp hat).2

theorem preserves_putIndex {content : Content}
    (hlog : tree.at? (SideFile.log.place place) = some (.file content))
    (hroom : tree.hasRoom (SideFile.index.place place) = true) :
    Preserves place tree (tree.put (SideFile.index.place place) (.file indexContent)) where
  own content := at?_put_index hlog hroom _ rfl (SideFile.place_ne_self .index place).symm
  databases other db hat := by
    refine (at?_put_index hlog hroom indexContent rfl ?_).mp hat
    rintro rfl
    rw [at?_put_index_self hlog] at hat
    cases hat

/-- To tidy up does not touch the databases. -/
theorem preserves_settle? (h : settle? place access tree = some tree') :
    Preserves place tree tree' := by
  obtain ⟨tree₁, hjournal, hlog⟩ := Option.bind_eq_some_iff.mp h
  have hfirst : Preserves place tree tree₁ := by
    simp only [settleJournal?, Option.bind_eq_bind] at hjournal
    obtain ⟨short, -, hjournal⟩ := Option.bind_eq_some_iff.mp hjournal
    have herase := preserves_erase tree place .journal
    have hrefl := Preserves.refl place tree
    grind
  have hsecond : Preserves place tree₁ tree' := by
    simp only [settleLog?, Option.bind_eq_bind] at hlog
    obtain ⟨short, -, hlog⟩ := Option.bind_eq_some_iff.mp hlog
    have herase := preserves_erase tree₁ place .log
    have hboth := herase.trans (preserves_erase _ place .index)
    have hrefl := Preserves.refl place tree₁
    have hput : ∀ content, tree₁.at? (SideFile.log.place place) = some (.file content) → _ :=
      fun content => preserves_putIndex
    grind
  exact hfirst.trans hsecond

end FileTree

end MetadataCatalog
