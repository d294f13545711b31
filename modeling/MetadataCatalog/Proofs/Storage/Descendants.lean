import MetadataCatalog.Proofs.Storage.Entries
import Mathlib.Data.List.Lex
import Mathlib.Data.String.Basic

/-!
# What is below a folder

A folder is walked entry by entry in the order of their names, each entry in front of what is below
it. If no name is given twice, the walk comes to everything that names lead to through folders
(`mem_descendants_iff`), and in the order of the names (`pairwise_descendants`).
-/

namespace MetadataCatalog.FileTree

variable {α : Type}

/-! ## §1 Neat trees -/

/-- Whether the names in each folder are names that entries can have, and none is given twice. -/
structure IsNeat (tree : FileTree α) : Prop where
  distinct : ∀ {place entries}, tree.at? place = some (.folder entries) →
    (entries.map Prod.fst).Nodup
  named : ∀ {place entries}, tree.at? place = some (.folder entries) →
    ∀ e ∈ entries, Path.IsName e.1 ∧ Path.isUsable e.1 = true

theorem mem_of_child? {name : String} {node : FileTree α} {entries : List (String × FileTree α)}
    (h : child? name (.folder entries) = some node) : (name, node) ∈ entries := by
  obtain ⟨e, hfind, rfl⟩ := Option.map_eq_some_iff.mp h
  obtain rfl : e.1 = name := by simpa using List.find?_some hfind
  exact List.mem_of_find?_eq_some hfind

theorem isNeat_file (content : α) : IsNeat (.file content) where
  distinct {place entries} h := by cases place <;> cases h
  named {place entries} h := by cases place <;> cases h

theorem isNeat_link (target : String) : IsNeat (.link target : FileTree α) where
  distinct {place entries} h := by cases place <;> cases h
  named {place entries} h := by cases place <;> cases h

/-- A folder is neat if its names are and all its entries. -/
theorem isNeat_folder {entries : List (String × FileTree α)}
    (hdistinct : (entries.map Prod.fst).Nodup)
    (hnamed : ∀ e ∈ entries, Path.IsName e.1 ∧ Path.isUsable e.1 = true)
    (hneat : ∀ e ∈ entries, e.2.IsNeat) : IsNeat (.folder entries) := by
  have hplace : ∀ {place below}, (FileTree.folder entries).at? place = some (.folder below) →
      (below.map Prod.fst).Nodup ∧
        ∀ e ∈ below, Path.IsName e.1 ∧ Path.isUsable e.1 = true := by
    intro place below h
    cases place with
    | nil =>
      cases h
      exact ⟨hdistinct, hnamed⟩
    | cons name rest =>
      obtain ⟨child, hchild, hrest⟩ := Option.bind_eq_some_iff.mp h
      have hbelow := hneat _ (mem_of_child? hchild)
      exact ⟨hbelow.distinct hrest, hbelow.named hrest⟩
  exact ⟨fun h => (hplace h).1, fun h => (hplace h).2⟩

section Entries

variable {entries : List (String × FileTree α)} (h : IsNeat (.folder entries))
include h

theorem IsNeat.child?_eq_some_iff {name : String} {node : FileTree α} :
    child? name (.folder entries) = some node ↔ (name, node) ∈ entries :=
  ⟨mem_of_child?, child?_of_mem (h.distinct (at?.eq_1 ..))⟩

theorem IsNeat.at?_entry {e : String × FileTree α} (he : e ∈ entries) (rest : List String) :
    (FileTree.folder entries).at? (e.1 :: rest) = e.2.at? rest := by
  rw [at?, h.child?_eq_some_iff.mpr he, Option.bind_some]

theorem IsNeat.entry {e : String × FileTree α} (he : e ∈ entries) :
    e.2.IsNeat ∧ Path.IsName e.1 ∧ Path.isUsable e.1 = true :=
  ⟨⟨fun hplace => h.distinct ((h.at?_entry he _).trans hplace),
    fun hplace => h.named ((h.at?_entry he _).trans hplace)⟩, h.named (at?.eq_1 ..) e he⟩

end Entries

/-- All the names on a way through folders are names that entries can have. -/
theorem IsNeat.names {tree node : FileTree α} (h : IsNeat tree) {names : List String}
    (hnode : tree.at? names = some node) :
    ∀ name ∈ names, Path.IsName name ∧ Path.isUsable name = true := by
  induction names generalizing tree with
  | nil => exact fun _ hname => nomatch hname
  | cons name names ih =>
    obtain ⟨child, hchild, hrest⟩ := Option.bind_eq_some_iff.mp hnode
    obtain ⟨entries, rfl⟩ := exists_folder_of_child? hchild
    obtain ⟨hneat, hname⟩ := h.entry (mem_of_child? hchild)
    exact List.forall_mem_cons.mpr ⟨hname, ih hneat hrest⟩

/-! ## §2 The walk -/

/-- An entry and what is below it. -/
def walked (e : String × FileTree α) : List (List String × FileTree α) :=
  ([e.1], e.2) :: (descendants e.2).map fun (names, node) => (e.1 :: names, node)

theorem descendantsOf_eq (entries : List (String × FileTree α)) :
    descendantsOf entries = entries.map fun e => (e.1, walked e) := by
  induction entries with
  | nil => rfl
  | cons e entries ih => rw [descendantsOf, ih]; rfl

theorem mem_walked_iff {e : String × FileTree α} {names : List String} {node : FileTree α} :
    (names, node) ∈ walked e ↔ ∃ rest, names = e.1 :: rest ∧
      (rest = [] ∧ node = e.2 ∨ (rest, node) ∈ descendants e.2) := by
  rw [walked, List.mem_cons, List.mem_map]
  constructor
  · rintro (heq | ⟨⟨rest, n⟩, hmem, ⟨⟩⟩)
    · obtain ⟨rfl, rfl⟩ := Prod.mk.inj heq
      exact ⟨[], rfl, .inl ⟨rfl, rfl⟩⟩
    · exact ⟨rest, rfl, .inr hmem⟩
  · rintro ⟨rest, rfl, ⟨rfl, rfl⟩ | hmem⟩
    · exact .inl rfl
    · exact .inr ⟨(rest, node), hmem, rfl⟩

theorem mem_descendants_folder {entries : List (String × FileTree α)} {names : List String}
    {node : FileTree α} : (names, node) ∈ descendants (.folder entries) ↔
      ∃ e ∈ entries, (names, node) ∈ walked e := by
  rw [descendants, descendantsOf_eq, List.mem_flatMap]
  simp only [List.mem_mergeSort, List.mem_map]
  constructor
  · rintro ⟨_, ⟨e, he, rfl⟩, hmem⟩
    exact ⟨e, he, hmem⟩
  · rintro ⟨e, he, hmem⟩
    exact ⟨_, ⟨e, he, rfl⟩, hmem⟩

theorem exists_folder_of_descendant {tree : FileTree α} {x : List String × FileTree α}
    (h : x ∈ descendants tree) : ∃ entries, tree = .folder entries := by
  cases tree with
  | file content => exact nomatch h
  | link target => exact nomatch h
  | folder entries => exact ⟨entries, rfl⟩

/-- The walk comes to everything that names lead to through folders, and to nothing else. -/
theorem mem_descendants_iff {tree node : FileTree α} (h : tree.IsNeat) {names : List String} :
    (names, node) ∈ descendants tree ↔ names ≠ [] ∧ tree.at? names = some node := by
  constructor
  · intro hmem
    induction names generalizing tree with
    | nil =>
      obtain ⟨entries, rfl⟩ := exists_folder_of_descendant hmem
      obtain ⟨e, -, he⟩ := mem_descendants_folder.mp hmem
      obtain ⟨rest, hrest, -⟩ := mem_walked_iff.mp he
      cases hrest
    | cons name rest ih =>
      obtain ⟨entries, rfl⟩ := exists_folder_of_descendant hmem
      obtain ⟨e, he, hwalked⟩ := mem_descendants_folder.mp hmem
      obtain ⟨_, ⟨⟩, ⟨rfl, rfl⟩ | hbelow⟩ := mem_walked_iff.mp hwalked
      · exact ⟨List.cons_ne_nil _ _, h.at?_entry he []⟩
      · exact ⟨List.cons_ne_nil _ _, (h.at?_entry he rest).trans (ih (h.entry he).1 hbelow).2⟩
  · rintro ⟨hne, hat⟩
    induction names generalizing tree with
    | nil => exact absurd rfl hne
    | cons name rest ih =>
      obtain ⟨child, hchild, hrest⟩ := Option.bind_eq_some_iff.mp hat
      obtain ⟨entries, rfl⟩ := exists_folder_of_child? hchild
      have he := mem_of_child? hchild
      refine mem_descendants_folder.mpr ⟨_, he, mem_walked_iff.mpr ⟨rest, rfl, ?_⟩⟩
      cases rest with
      | nil => exact .inl ⟨rfl, (Option.some.inj hrest).symm⟩
      | cons next rest => exact .inr (ih (h.entry he).1 (List.cons_ne_nil _ _) hrest)

/-- Entries with names in order have all that is below them in order. -/
theorem walked_lt {e e' : String × FileTree α} (h : e.1 < e'.1) :
    ∀ x ∈ walked e, ∀ y ∈ walked e', x.1 < y.1 := by
  intro x hx y hy
  obtain ⟨rest, hrest, -⟩ := mem_walked_iff.mp hx
  obtain ⟨rest', hrest', -⟩ := mem_walked_iff.mp hy
  rw [hrest, hrest']
  exact List.cons_lt_cons_iff.mpr (.inl h)

/-- An entry comes before all that is below it. -/
theorem pairwise_walked {e : String × FileTree α} (h : e.2.IsNeat)
    (hbelow : (descendants e.2).Pairwise fun a b => a.1 < b.1) :
    (walked e).Pairwise fun a b => a.1 < b.1 := by
  refine List.pairwise_cons.mpr ⟨?_, List.pairwise_map.mpr (hbelow.imp fun hlt => ?_)⟩
  · intro x hx
    obtain ⟨⟨rest, node⟩, hmem, rfl⟩ := List.mem_map.mp hx
    obtain ⟨next, more, rfl⟩ := List.exists_cons_of_ne_nil ((mem_descendants_iff h).mp hmem).1
    exact List.cons_lt_cons_iff.mpr (.inr ⟨rfl, List.nil_lt_cons ..⟩)
  · exact List.cons_lt_cons_iff.mpr (.inr ⟨rfl, hlt⟩)

theorem pairwise_mergeSort_names {β : Type} {entries : List (String × β)}
    (h : (entries.map Prod.fst).Nodup) :
    (entries.mergeSort fun a b => decide (a.1 ≤ b.1)).Pairwise fun a b => a.1 < b.1 := by
  have hperm := List.mergeSort_perm entries fun a b => decide (a.1 ≤ b.1)
  have hdistinct : (entries.mergeSort fun a b => decide (a.1 ≤ b.1)).Pairwise
      fun a b => a.1 ≠ b.1 :=
    List.pairwise_map.mp ((hperm.map Prod.fst).nodup_iff.mpr h)
  have hsorted : (entries.mergeSort fun a b => decide (a.1 ≤ b.1)).Pairwise
      fun a b => decide (a.1 ≤ b.1) = true :=
    List.pairwise_mergeSort
      (fun a b c hab hbc => by
        simpa using le_trans (of_decide_eq_true hab) (of_decide_eq_true hbc))
      (fun a b => by simpa using le_total a.1 b.1) entries
  exact hsorted.imp₂ (fun a b hle hne => lt_of_le_of_ne (of_decide_eq_true hle) hne) hdistinct

mutual

/-- It does so in the order of the names. -/
theorem pairwise_descendants : ∀ {tree : FileTree α}, tree.IsNeat →
    (descendants tree).Pairwise fun a b => a.1 < b.1
  | .file _, _ => .nil
  | .link _, _ => .nil
  | .folder entries, h => by
    have hentries := pairwise_descendants_entries entries fun e he => (h.entry he).1
    have hnames : ((descendantsOf entries).map Prod.fst).Nodup := by
      rw [descendantsOf_eq, List.map_map]
      exact h.distinct (at?.eq_1 ..)
    rw [descendants, List.pairwise_flatMap]
    constructor
    · intro x hx
      rw [List.mem_mergeSort, descendantsOf_eq] at hx
      obtain ⟨e, he, rfl⟩ := List.mem_map.mp hx
      exact pairwise_walked (h.entry he).1 (hentries e he)
    · refine (pairwise_mergeSort_names hnames).imp_of_mem fun hx hy hlt => ?_
      rw [List.mem_mergeSort, descendantsOf_eq] at hx hy
      obtain ⟨e, -, rfl⟩ := List.mem_map.mp hx
      obtain ⟨e', -, rfl⟩ := List.mem_map.mp hy
      exact walked_lt hlt

theorem pairwise_descendants_entries : ∀ entries : List (String × FileTree α),
    (∀ e ∈ entries, e.2.IsNeat) → ∀ e ∈ entries, (descendants e.2).Pairwise fun a b => a.1 < b.1
  | [], _ => fun _ he => nomatch he
  | (_, _) :: rest, h => List.forall_mem_cons.mpr
    ⟨pairwise_descendants (h _ List.mem_cons_self),
      pairwise_descendants_entries rest fun e he => h e (List.mem_cons_of_mem _ he)⟩

end

end MetadataCatalog.FileTree
