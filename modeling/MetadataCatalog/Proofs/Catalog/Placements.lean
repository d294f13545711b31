import MetadataCatalog.Proofs.Catalog.Cabinets
import MetadataCatalog.Proofs.Catalog.NewFiles

/-!
# Placements

A placement says at which place in a tree each half of a catalog is kept; it may be one place for
both. Where the places are free and nothing comes in their way (`Placement.IsRoom`), calls to the
catalog make and change the files at these places and nothing else (`Placement.Regains`), and what
the files show is the cabinet on which the calls work (`Placement.Shows`).

The connections that are opened at the places serve the databases of the cabinet
(`Placement.Open.serves`), and whatever is done through them is done on the cabinet
(`Placement.update_mirrors`, `Placement.query_mirrors`, `Placement.make_mirrors`).
-/

namespace MetadataCatalog

/-- The place at which each half of a catalog is kept. -/
abbrev Placement := Half → List String

namespace Placement

/-- Both halves are kept at one place. -/
def shared (P : Placement) : Bool :=
  P .store = P .tables

theorem place_eq_iff {P : Placement} {half other : Half} :
    P other = P half ↔ (P.shared || other = half) = true := by
  cases half <;> cases other <;> simp [shared, eq_comm]

/-! ## §1 Trees that differ at the places of a placement -/

/-- At the places of a placement there can be files that are new or changed; elsewhere is what was
there. -/
structure Regains (P : Placement) (tree tree' : Files) : Prop where
  gains : tree.GainsFiles (∃ half, · = P half) tree'
  others : ∀ place, (∀ half, ¬ P half <+: place ∧ ¬ place <+: P half) →
    tree'.at? place = tree.at? place

variable {P : Placement} {tree tree' tree'' initial : Files} {half : Half}

theorem Regains.refl (P : Placement) (tree : Files) : P.Regains tree tree :=
  ⟨.of_kindAt? fun _ => rfl, fun _ _ => rfl⟩

theorem Regains.trans (h : P.Regains tree tree') (h' : P.Regains tree' tree'') :
    P.Regains tree tree'' :=
  ⟨h.gains.trans h'.gains,
    fun place hplace => (h'.others place hplace).trans (h.others place hplace)⟩

theorem regains_put {old : Content} (h : tree.at? (P half) = some (.file old)) (new : Content) :
    P.Regains tree (tree.put (P half) (.file new)) where
  gains := .of_kindAt? (FileTree.kindAt?_put_file h new)
  others _ hplace := FileTree.at?_put_of_apart (hplace half).1 (hplace half).2 tree _

theorem regains_withFileAt? {content : Option Content} (hne : P half ≠ [])
    (h : tree.withFileAt? content (P half) = some tree') : P.Regains tree tree' where
  gains := (FileTree.gainsFiles_withFileAt? hne h).mono fun _ hplace => ⟨half, hplace⟩
  others place hplace := by
    rcases FileTree.withFileAt?_eq_some h with ⟨-, rfl⟩ | ⟨new, -, -, -, rfl⟩
    · rfl
    · exact FileTree.at?_put_of_apart (hplace half).1 (hplace half).2 tree _

/-- There is room for a catalog: nothing stands at the places, a file can be made at each of them,
and nothing has the names of side files beside them. -/
structure IsRoom (P : Placement) (initial : Files) : Prop where
  work : initial.HasWorkingFolder
  nothing : ∀ half, initial.at? (P half) = none
  folder : ∀ half, initial.FolderAt (P half).dropLast
  free : ∀ half (side : SideFile), side ≠ .index → initial.HasFree (P half) side
  apart : ∀ half other (side : SideFile), side ≠ .index → P half ≠ side.place (P other)

namespace IsRoom

variable (hroom : P.IsRoom initial)
include hroom

theorem place_ne_nil (half : Half) : P half ≠ [] := by
  intro hnil
  have hnone := hroom.nothing half
  rw [hnil] at hnone
  cases hnone

/-- Beside the databases there is still nothing when files have been made at their places. -/
theorem hasFree (h : P.Regains initial tree) (half : Half) {side : SideFile}
    (hside : side ≠ .index) : tree.HasFree (P half) side := by
  have hplace : (P half).dropLast ++ [side.name ((P half).getLast?.getD "")] =
      side.place (P half) := rfl
  refine FileTree.resolve_free_of_gainsFiles h.gains (hroom.free half side hside) ?_
  rw [hplace]
  rintro ⟨other, heq⟩
  exact hroom.apart other half side hside heq.symm

end IsRoom

/-- The files show the databases of a cabinet: a database is in the file at its place, and it is
empty if there is nothing. Elsewhere is what was there at first. -/
structure Shows (P : Placement) (initial files : Files) (c : Cabinet) : Prop where
  regains : P.Regains initial files
  databases : ∀ half, (∃ content : Content, files.at? (P half) = some (.file content) ∧
      content.database? = some (c half)) ∨
    files.at? (P half) = none ∧ c half = .empty

/-- Two halves at one place are in one database. -/
theorem Shows.eq_of_place {files : Files} {c : Cabinet} (h : P.Shows initial files c) {other : Half}
    (hplace : P other = P half) : c other = c half := by
  rcases h.databases other with ⟨content, hat, hdb⟩ | ⟨hnone, hempty⟩ <;>
    rcases h.databases half with ⟨content', hat', hdb'⟩ | ⟨hnone', hempty'⟩
  · rw [hplace, hat'] at hat
    cases hat
    exact Option.some.inj (hdb.symm.trans hdb')
  · rw [hplace, hnone'] at hat
    cases hat
  · rw [hplace, hat'] at hnone
    cases hnone
  · rw [hempty, hempty']

/-- Nothing has changed in the cabinet when the same database is put into it. -/
theorem Shows.put_same {files : Files} {c : Cabinet} (h : P.Shows initial files c) (half : Half) :
    c.put P.shared half (c half) = c := by
  funext other
  rw [Cabinet.put]
  split
  · next hsame => exact (h.eq_of_place (place_eq_iff.mpr hsame)).symm
  · rfl

/-- At first the files show an empty cabinet. -/
theorem IsRoom.shows_empty (hroom : P.IsRoom initial) : P.Shows initial initial .empty :=
  ⟨.refl P initial, fun half => .inr ⟨hroom.nothing half, rfl⟩⟩

/-! ## §2 Open databases -/

/-- A connection leads to the database of one half, and may change it. -/
structure Connects (P : Placement) (half : Half) (c : Connection) : Prop where
  seat : c.seat = .file (P half)
  mayChange : c.access.mayChange = true

/-- The files of a workspace show a cabinet, some of whose halves have been opened, and connections
to files that are shared may change them. -/
structure Open (P : Placement) (initial : Files) (opened : List Half) (w : Workspace)
    (c : Cabinet) : Prop where
  shows : P.Shows initial w.files c
  there : ∀ half ∈ opened, ∃ content, w.files.at? (P half) = some (.file content)
  shares : ∀ place conn, w.shared.lookup (.file place) = some conn →
    conn.seat = .file place ∧ conn.access.mayChange = true

variable {opened : List Half} {w w' : Workspace} {c : Cabinet} {conn : Connection}

/-- A connection to a half that has been opened serves its database. -/
theorem Open.serves (h : P.Open initial opened w c) (hroom : P.IsRoom initial)
    (hhalf : half ∈ opened) (hconn : P.Connects half conn) : conn.Serves w (c half) where
  mayChange := hconn.mayChange
  database := by
    obtain ⟨content, hat⟩ := h.there half hhalf
    rcases h.shows.databases half with ⟨content', hat', hdb⟩ | ⟨hnone, -⟩
    · exact (Connection.database?_of_file hconn.seat hat').trans hdb
    · cases hnone.symm.trans hat
  free := by
    intro place hplace
    obtain rfl := Seat.file.inj (hconn.seat.symm.trans hplace)
    exact ⟨hroom.hasFree h.shows.regains half nofun, hroom.hasFree h.shows.regains half nofun⟩

/-- The cabinet after another database has been written for one half. -/
theorem Open.written (h : P.Open initial opened w c) (hhalf : half ∈ opened) (new : Database) :
    P.Open initial opened { w with files := w.files.put (P half) (.file (.database new)) }
      (c.put P.shared half new) := by
  obtain ⟨old, hold⟩ := h.there half hhalf
  have helse {other : Half} (hplace : P other ≠ P half) (node : FileTree Content)
      (hnode : node.isFolder = false) :
      (w.files.put (P half) (.file (.database new))).at? (P other) = some node ↔
        w.files.at? (P other) = some node := by
    rw [← FileTree.labelAt?_eq_some_iff hnode, FileTree.labelAt?_put_file_of_ne hold hplace,
      FileTree.labelAt?_eq_some_iff hnode]
  refine ⟨⟨h.shows.regains.trans (regains_put hold _), fun other => ?_⟩, fun other hother => ?_,
    h.shares⟩
  · -- the halves at this place, which may be both, have the new database
    by_cases hplace : P other = P half
    · left
      rw [hplace, Cabinet.put, if_pos (place_eq_iff.mp hplace)]
      exact ⟨_, FileTree.at?_put_self hold _, rfl⟩
    · rw [Cabinet.put, if_neg fun hsame => hplace (place_eq_iff.mpr hsame)]
      rcases h.shows.databases other with ⟨content, hat, hdb⟩ | ⟨hnone, hempty⟩
      · exact .inl ⟨content, (helse hplace _ rfl).mpr hat, hdb⟩
      · have hkind : (w.files.put (P half) (.file (.database new))).kindAt? (P other) = none := by
          rw [FileTree.kindAt?_put_file hold, FileTree.kindAt?, hnone]
          rfl
        exact .inr ⟨Option.map_eq_none_iff.mp hkind, hempty⟩
  · by_cases hplace : P other = P half
    · rw [hplace]
      exact ⟨_, FileTree.at?_put_self hold _⟩
    · obtain ⟨content, hat⟩ := h.there other hother
      exact ⟨content, (helse hplace _ rfl).mpr hat⟩

/-! ## §3 Work through a connection -/

section Work

variable (hroom : P.IsRoom initial) (hhalf : half ∈ opened) (hconn : P.Connects half conn)
include hroom hhalf hconn

/-- What is written through a connection is written in the cabinet. -/
theorem Open.run_write (h : P.Open initial opened w c) (new : Database) :
    ∃ w', (conn.write new).run w = (.ok (), w') ∧
      P.Open initial opened w' (c.put P.shared half new) := by
  obtain ⟨old, hold⟩ := h.there half hhalf
  have hwrite := FileTree.writeDatabase?_of_free hold
    (hroom.hasFree h.shows.regains half nofun) new
  exact ⟨_, (Connection.run_write_file hconn.seat).mpr ⟨hconn.mayChange, _, hwrite, rfl⟩,
    h.written hhalf new⟩

/-- A change through a connection is a change in the cabinet. -/
theorem update_mirrors {α : Type} (writes : Bool)
    (change : Database → Except Fault α × Database) :
    Work.Mirrors (P.Open initial opened) (conn.update writes change)
      (Cabinet.change P.shared half change) := by
  intro w c h
  have hread := (h.serves hroom hhalf hconn).run_read
  -- if nothing is written, the change has left the database as it was
  by_cases hwrites : writes = true ∨ (change (c half)).2 ≠ c half
  · obtain ⟨w', hrun, h'⟩ := h.run_write hroom hhalf hconn (change (c half)).2
    exact ⟨w', Connection.run_update_of_write hread rfl hwrites hrun, h'⟩
  · obtain ⟨hwrites, hsame⟩ := not_or.mp hwrites
    have hsame := Decidable.not_not.mp hsame
    refine ⟨w, ?_, ?_⟩
    · exact Connection.run_update_of_same hread (Prod.ext rfl hsame) (Bool.eq_false_iff.mpr hwrites)
    · rw [Cabinet.run_change, hsame, h.shows.put_same]
      exact h

/-- A question through a connection is a question to the cabinet. -/
theorem query_mirrors {α : Type} (ask : Database → Except Fault α) :
    Work.Mirrors (P.Open initial opened) (conn.query ask) (Cabinet.ask half ask) :=
  fun w _ h => ⟨w, (h.serves hroom hhalf hconn).run_query ask, h⟩

/-- What is made through a connection is made in the cabinet. -/
theorem make_mirrors (make : Database → Except Fault Database) :
    Work.Mirrors (P.Open initial opened) (conn.make make)
      (Cabinet.change P.shared half (Database.making make)) := by
  intro w c h
  have hread := (h.serves hroom hhalf hconn).run_read
  cases hnew : make (c half) with
  | error fault =>
    refine ⟨w, ?_, ?_⟩
    · unfold Connection.make
      rw [Work.run_bind_ok hread, hnew, Cabinet.run_change, Database.making, hnew]
      rfl
    · rw [Cabinet.run_change, Database.making, hnew, h.shows.put_same]
      exact h
  | ok new =>
    rw [Cabinet.run_change, Database.making, hnew]
    by_cases hsame : new = c half
    · refine ⟨w, Connection.run_make_of_same hread (hsame ▸ hnew), ?_⟩
      rw [hsame, h.shows.put_same]
      exact h
    · obtain ⟨w', hrun, h'⟩ := h.run_write hroom hhalf hconn new
      exact ⟨w', Connection.run_make_of_write hread hnew hsame hrun, h'⟩

end Work

end Placement

end MetadataCatalog
