import MetadataCatalog.Json.Prune
import Mathlib.Data.List.Basic
import Mathlib.Logic.Relation

/-!
# What pruning removes and what it leaves

A value is a tree: at its top stands a mark (a null, a truth value, a number, a text, or the sign of
a list or an object), and below it stand its children, each behind a step that knows the name of an
entry. The inventory of a value lists all that stands in it from the top down, each line with the
names on the way to it. It tells values apart (`inventory_injective`), so it can say what pruning
does: the lines of the nulls go and every other line stays, in its order
(`inventory_prune`). All that `prune_removes_nulls` says follows from these two.
-/

namespace MetadataCatalog.Json

/-! ## §1 Values as trees -/

/-- What stands at one place of a value, without what stands below it. -/
inductive Mark where
  | null
  | boolean (b : Bool)
  | integer (n : Int)
  | real (x : Float)
  | text (s : String)
  | list
  | object

/-- What stands at the top of a value. -/
def mark : Json → Mark
  | .null => .null
  | .boolean b => .boolean b
  | .integer n => .integer n
  | .real x => .real x
  | .text s => .text s
  | .list _ => .list
  | .object _ => .object

/-- A step down: to an item of a list, or to the value under a name. -/
inductive Step where
  | item
  | entry (name : String)

/-- The items of a list or the entries of an object, in order. -/
def children : Json → List (Step × Json)
  | .list items => items.map fun v => (.item, v)
  | .object entries => entries.map fun e => (.entry e.1, e.2)
  | _ => []

/-- A value is told by its mark and its children. -/
theorem eq_of_mark_eq_of_children_eq {v w : Json} (hmark : v.mark = w.mark)
    (hchildren : v.children = w.children) : v = w := by
  cases v <;> cases w <;> simp only [mark, Mark.boolean.injEq, Mark.integer.injEq,
    Mark.real.injEq, Mark.text.injEq, reduceCtorEq] at hmark
  case null => rfl
  case list items items' =>
    have hitems := congrArg (List.map Prod.snd) hchildren
    simpa [children, Function.comp_def] using hitems
  case object entries entries' =>
    have hinjective : Function.Injective fun e : String × Json => (Step.entry e.1, e.2) := by
      rintro ⟨k, v⟩ ⟨k', v'⟩ h
      simpa using h
    exact congrArg _ (List.map_injective_iff.mpr hinjective hchildren)
  all_goals rw [hmark]

theorem sizeOf_lt_of_mem_children {v : Json} {c : Step × Json} (h : c ∈ v.children) :
    sizeOf c.2 < sizeOf v := by
  cases v with
  | null | boolean | integer | real | text => cases h
  | list items =>
    obtain ⟨w, hw, rfl⟩ := List.mem_map.mp h
    have hlt := List.sizeOf_lt_of_mem hw
    simp only [list.sizeOf_spec]
    omega
  | object entries =>
    obtain ⟨⟨name, w⟩, he, rfl⟩ := List.mem_map.mp h
    have hlt := List.sizeOf_lt_of_mem he
    simp only [object.sizeOf_spec, Prod.mk.sizeOf_spec] at hlt ⊢
    omega

/-- Induction over a value: what holds of every child holds of the value. -/
@[elab_as_elim]
theorem induction_children {motive : Json → Prop}
    (step : ∀ v : Json, (∀ c ∈ v.children, motive c.2) → motive v) (v : Json) : motive v :=
  step v fun c _ => induction_children step c.2
termination_by sizeOf v
decreasing_by exact sizeOf_lt_of_mem_children ‹_›

/-! ## §2 Inventories -/

/-- A line of an inventory: the way down from the top, and what stands at its end. -/
structure Line where
  way : List Step
  mark : Mark

namespace Line

/-- The line one step further down. -/
def under (step : Step) (l : Line) : Line :=
  { l with way := step :: l.way }

/-- Whether a null stands on the line. -/
def isNull (l : Line) : Bool :=
  match l.mark with
  | .null => true
  | _ => false

theorem under_injective (step : Step) : Function.Injective (under step) := by
  rintro ⟨way, mark⟩ ⟨way', mark'⟩ h
  simpa [under] using h

end Line

mutual

/-- All that stands in a value, from the top down: the value itself, then what stands in each of its
children. -/
def inventory : Json → List Line
  | .list items => ⟨[], .list⟩ :: inventoryItems items
  | .object entries => ⟨[], .object⟩ :: inventoryEntries entries
  | v => [⟨[], v.mark⟩]

/-- All that stands in the items of a list. -/
def inventoryItems : List Json → List Line
  | [] => []
  | v :: rest => (inventory v).map (Line.under .item) ++ inventoryItems rest

/-- All that stands under the names of an object. -/
def inventoryEntries : List (String × Json) → List Line
  | [] => []
  | (name, v) :: rest => (inventory v).map (Line.under (.entry name)) ++ inventoryEntries rest

end

/-- What stands in a child, as it is listed for the value above. -/
def block (c : Step × Json) : List Line :=
  (inventory c.2).map (Line.under c.1)

theorem inventoryItems_eq (items : List Json) :
    inventoryItems items = (items.map fun v => (Step.item, v)).flatMap block := by
  induction items with
  | nil => rfl
  | cons v rest ih => rw [inventoryItems, ih, List.map_cons, List.flatMap_cons, block]

theorem inventoryEntries_eq (entries : List (String × Json)) :
    inventoryEntries entries = (entries.map fun e => (Step.entry e.1, e.2)).flatMap block := by
  induction entries with
  | nil => rfl
  | cons e rest ih => rw [inventoryEntries, ih, List.map_cons, List.flatMap_cons, block]

/-- **Inventories**: the mark of the value, and then what stands in each child. -/
theorem inventory_eq (v : Json) : inventory v = ⟨[], v.mark⟩ :: v.children.flatMap block := by
  cases v with
  | null | boolean | integer | real | text => simp [inventory, children]
  | list items => rw [inventory, inventoryItems_eq, mark, children]
  | object entries => rw [inventory, inventoryEntries_eq, mark, children]

theorem block_eq (c : Step × Json) :
    block c = ⟨[c.1], c.2.mark⟩ :: (c.2.children.flatMap block).map (Line.under c.1) := by
  rw [block, inventory_eq, List.map_cons, Line.under]

/-! ## §3 Inventories tell values apart -/

/-- A line that stands below a child. -/
def Line.isDeep (l : Line) : Bool :=
  decide (2 ≤ l.way.length)

/-- Below its first line a block has deep lines only. -/
theorem isDeep_of_mem_tail_block {c : Step × Json} {l : Line} (h : l ∈ (block c).tail) :
    l.isDeep = true := by
  rw [block_eq, List.tail_cons] at h
  obtain ⟨below, hbelow, rfl⟩ := List.mem_map.mp h
  obtain ⟨d, -, hline⟩ := List.mem_flatMap.mp hbelow
  obtain ⟨inner, -, rfl⟩ := List.mem_map.mp hline
  simp [Line.isDeep, Line.under]

/-- The deep lines that blocks begin with are none. -/
theorem takeWhile_isDeep_blocks (cs : List (Step × Json)) :
    (cs.flatMap block).takeWhile Line.isDeep = [] := by
  cases cs with
  | nil => rfl
  | cons c rest => simp [block_eq c, Line.isDeep]

/-- The first block of several is found again: it ends where the next line is not deep. -/
theorem takeWhile_isDeep_append (c : Step × Json) (cs : List (Step × Json)) :
    ((block c).tail ++ cs.flatMap block).takeWhile Line.isDeep = (block c).tail := by
  rw [List.takeWhile_append_of_pos fun l hl => isDeep_of_mem_tail_block hl,
    takeWhile_isDeep_blocks, List.append_nil]

/-- A block is told from what follows it: its first line is the first of all, and the others are
the deep lines behind. -/
theorem block_eq_of_append_eq {c d : Step × Json} {cs ds : List (Step × Json)}
    (h : block c ++ cs.flatMap block = block d ++ ds.flatMap block) : block c = block d := by
  have hparts : ∀ c : Step × Json, block c = ⟨[c.1], c.2.mark⟩ :: (block c).tail := by
    intro c
    rw [block_eq, List.tail_cons]
  rw [hparts c, hparts d, List.cons_append, List.cons_append] at h
  obtain ⟨hfirst, hbehind⟩ := List.cons.inj h
  have hdeep := congrArg (List.takeWhile Line.isDeep) hbehind
  rw [takeWhile_isDeep_append, takeWhile_isDeep_append] at hdeep
  rw [hparts c, hparts d, hfirst, hdeep]

/-- The first line of a block tells the step, and the lines without it are an inventory. -/
theorem eq_of_block_eq {c d : Step × Json}
    (hinventory : inventory c.2 = inventory d.2 → c.2 = d.2) (h : block c = block d) : c = d := by
  have hfirst := congrArg List.head? h
  rw [block_eq c, block_eq d, List.head?_cons, List.head?_cons] at hfirst
  have hstep : c.1 = d.1 := (List.cons.inj (Line.mk.inj (Option.some.inj hfirst)).1).1
  rw [block, block, hstep] at h
  exact Prod.ext hstep (hinventory (List.map_injective_iff.mpr (Line.under_injective d.1) h))

/-- Blocks one after the other are told apart when their children are. -/
theorem eq_of_flatMap_block_eq {cs ds : List (Step × Json)}
    (h : ∀ c ∈ cs, ∀ w, inventory c.2 = inventory w → c.2 = w)
    (heq : cs.flatMap block = ds.flatMap block) : cs = ds := by
  induction cs generalizing ds with
  | nil =>
    cases ds with
    | nil => rfl
    | cons d rest => simp [block_eq d] at heq
  | cons c cs ih =>
    cases ds with
    | nil => simp [block_eq c] at heq
    | cons d ds =>
      rw [List.flatMap_cons, List.flatMap_cons] at heq
      have hblock : block c = block d := block_eq_of_append_eq heq
      rw [hblock] at heq
      have hrest : cs = ds := by
        apply ih fun a ha => h a (List.mem_cons_of_mem _ ha)
        exact List.append_cancel_left heq
      rw [eq_of_block_eq (h c List.mem_cons_self d.2) hblock, hrest]

/-- **Inventories tell values apart.** -/
theorem inventory_injective : Function.Injective inventory := by
  intro v
  induction v using induction_children with
  | step v ih =>
    intro w h
    rw [inventory_eq v, inventory_eq w] at h
    obtain ⟨hfirst, hbelow⟩ := List.cons.inj h
    apply eq_of_mark_eq_of_children_eq (Line.mk.inj hfirst).2
    exact eq_of_flatMap_block_eq (fun c hc w hw => ih c hc hw) hbelow

/-! ## §4 Nulls in a value -/

/-- One value is an item of the other or stands under one of its names. -/
inductive Part : Json → Json → Prop where
  | item {v : Json} {items : List Json} (h : v ∈ items) : Part v (.list items)
  | entry {name : String} {v : Json} {entries : List (String × Json)} (h : (name, v) ∈ entries) :
      Part v (.object entries)

/-- One value stands strictly inside the other, at whatever depth. -/
def Inside : Json → Json → Prop :=
  Relation.TransGen Part

theorem part_iff {v w : Json} : Part v w ↔ ∃ step, (step, v) ∈ w.children := by
  constructor
  · intro h
    cases h with
    | item h => exact ⟨.item, List.mem_map_of_mem h⟩
    | entry h => exact ⟨_, List.mem_map_of_mem h⟩
  · rintro ⟨step, h⟩
    cases w with
    | null | boolean | integer | real | text => cases h
    | list items =>
      obtain ⟨u, hu, heq⟩ := List.mem_map.mp h
      obtain rfl := (Prod.mk.inj heq).2
      exact .item hu
    | object entries =>
      obtain ⟨⟨name, u⟩, he, heq⟩ := List.mem_map.mp h
      obtain rfl := (Prod.mk.inj heq).2
      exact .entry he

/-- A value stands inside another when it is a child or stands inside a child. -/
theorem inside_iff {v w : Json} :
    Inside v w ↔ ∃ c ∈ w.children, v = c.2 ∨ Inside v c.2 := by
  rw [Inside, Relation.TransGen.tail'_iff]
  constructor
  · rintro ⟨u, hu, hpart⟩
    obtain ⟨step, hc⟩ := part_iff.mp hpart
    refine ⟨(step, u), hc, ?_⟩
    exact (Relation.reflTransGen_iff_eq_or_transGen.mp hu).imp_left Eq.symm
  · rintro ⟨c, hc, hv⟩
    refine ⟨c.2, ?_, part_iff.mpr ⟨c.1, hc⟩⟩
    exact Relation.reflTransGen_iff_eq_or_transGen.mpr (hv.imp_left Eq.symm)

theorem mark_isNull {v : Json} : (Line.mk [] v.mark).isNull = true ↔ v = .null := by
  cases v <;> simp [mark, Line.isNull]

/-- A null is listed exactly when the value is null or has one inside. -/
theorem exists_null_line_iff (v : Json) :
    (∃ l ∈ inventory v, l.isNull = true) ↔ v = .null ∨ Inside .null v := by
  induction v using induction_children with
  | step v ih =>
    simp only [inventory_eq, List.mem_cons, exists_eq_or_imp, mark_isNull]
    rw [inside_iff]
    apply or_congr_right
    -- a line below the top stands in the block of a child
    constructor
    · rintro ⟨l, hl, hnull⟩
      obtain ⟨c, hc, hl⟩ := List.mem_flatMap.mp hl
      obtain ⟨inner, hinner, rfl⟩ := List.mem_map.mp hl
      exact ⟨c, hc, ((ih c hc).mp ⟨inner, hinner, hnull⟩).imp_left Eq.symm⟩
    · rintro ⟨c, hc, hchild⟩
      obtain ⟨inner, hinner, hnull⟩ := (ih c hc).mpr (hchild.imp_left Eq.symm)
      exact ⟨inner.under c.1, List.mem_flatMap.mpr ⟨c, hc, List.mem_map_of_mem hinner⟩, hnull⟩

/-! ## §5 Pruning -/

theorem mark_prune (v : Json) : v.prune.mark = v.mark := by
  cases v <;> rfl

/-- The children that are not null stay behind their steps, pruned. -/
theorem children_prune (v : Json) :
    v.prune.children = (v.children.filter (!·.2.isNull)).map fun c => (c.1, c.2.prune) := by
  cases v with
  | null | boolean | integer | real | text => rfl
  | list items => simp [prune, children, pruneItems_eq, List.filter_map, Function.comp_def]
  | object entries => simp [prune, children, pruneEntries_eq, List.filter_map, Function.comp_def]

/-- Lists put one after the other are filtered one by one, and those of which nothing is left may be
left out beforehand. -/
private theorem flatMap_filter_eq {α β : Type} {f g : α → List β} {keep : α → Bool} {p : β → Bool}
    {items : List α} (hkept : ∀ a ∈ items, keep a = true → f a = (g a).filter p)
    (hgone : ∀ a ∈ items, keep a = false → (g a).filter p = []) :
    (items.filter keep).flatMap f = (items.flatMap g).filter p := by
  induction items with
  | nil => rfl
  | cons a rest ih =>
    have hrest := ih (fun b hb => hkept b (List.mem_cons_of_mem _ hb))
      fun b hb => hgone b (List.mem_cons_of_mem _ hb)
    rw [List.flatMap_cons, List.filter_append, ← hrest]
    cases ha : keep a with
    | true => rw [List.filter_cons_of_pos ha, List.flatMap_cons, hkept a List.mem_cons_self ha]
    | false =>
      rw [List.filter_cons_of_neg (by simp [ha]), hgone a List.mem_cons_self ha, List.nil_append]

theorem isNull_iff {v : Json} : v.isNull = true ↔ v = .null := by
  cases v <;> simp [isNull]

/-- **What pruning leaves**: of the lines of a value those of its nulls are removed, and all others
stay as they are and in their order. -/
theorem inventory_prune {v : Json} (h : v ≠ .null) :
    inventory v.prune = (inventory v).filter (!·.isNull) := by
  induction v using induction_children with
  | step v ih =>
    have htop : ¬ (Line.mk [] v.mark).isNull = true := fun hnull => h (mark_isNull.mp hnull)
    rw [inventory_eq v.prune, inventory_eq v, List.filter_cons, if_pos (by simpa using htop),
      mark_prune, children_prune, List.flatMap_map]
    congr 1
    have hfilter : ∀ c : Step × Json,
        (block c).filter (!·.isNull) =
          ((inventory c.2).filter (!·.isNull)).map (Line.under c.1) := by
      intro c
      rw [block, List.filter_map]
      rfl
    apply flatMap_filter_eq
    · intro c hc hkept
      have hne : c.2 ≠ .null := by simpa [← isNull_iff] using hkept
      rw [hfilter, ← ih c hc hne, block]
    · intro c _ hgone
      -- a null has one line, its own
      have hnull : c.2 = .null := by simpa [isNull_iff] using hgone
      rw [hfilter, hnull]
      rfl

/-- In a pruned value no null stands inside. -/
theorem not_inside_null_prune (v : Json) : ¬ Inside .null v.prune := by
  by_cases h : v = .null
  · have hscalar : prune .null = .null := rfl
    rw [h, hscalar, inside_iff]
    simp [children]
  · intro hinside
    obtain ⟨l, hl, hnull⟩ := (exists_null_line_iff v.prune).mpr (.inr hinside)
    rw [inventory_prune h, List.mem_filter, hnull] at hl
    exact absurd hl.2 (by decide)

theorem prune_ne_null {v : Json} (h : v ≠ .null) : v.prune ≠ .null := by
  intro hnull
  apply h
  rw [← mark_isNull, ← mark_prune, hnull]
  rfl

/-- A value is its own pruning exactly when no null stands inside it. -/
theorem prune_eq_self_iff {v : Json} : v.prune = v ↔ ¬ Inside .null v := by
  constructor
  · intro h
    rw [← h]
    exact not_inside_null_prune v
  · intro hinside
    by_cases h : v = .null
    · rw [h]
      rfl
    · -- no line is removed, so the inventories are the same
      apply inventory_injective
      rw [inventory_prune h, List.filter_eq_self]
      intro l hl
      have hline : ¬ l.isNull = true := fun hnull =>
        ((exists_null_line_iff v).mp ⟨l, hl, hnull⟩).elim h hinside
      simpa using hline

/-- **Pruning removes the nulls and nothing else.** A value that is not null is left without a null
at any depth; a value in which no null stands inside stays as it is, and no other does; pruning
again changes nothing; and the pruned value is the one value that lists what the value lists, under
the same names and in the same order, without the nulls. -/
theorem prune_removes_nulls (v : Json) :
    (v ≠ .null → v.prune ≠ .null ∧ ¬ Inside .null v.prune) ∧
    (v.prune = v ↔ ¬ Inside .null v) ∧
    v.prune.prune = v.prune ∧
    (v ≠ .null → ∀ w, inventory w = (inventory v).filter (!·.isNull) ↔ w = v.prune) := by
  refine ⟨fun h => ⟨prune_ne_null h, not_inside_null_prune v⟩, prune_eq_self_iff,
    prune_eq_self_iff.mpr (not_inside_null_prune v), fun h w => ?_⟩
  rw [← inventory_prune h]
  exact inventory_injective.eq_iff

/-- A descriptor with a null value, a null in a list and an object that becomes empty. -/
def nestedNulls : Json :=
  .object [("key", .text "site"), ("values", .null),
    ("units", .list [.text "", .null, .object [("scale", .null)]])]

/-- The same descriptor without its nulls: the empty text and the empty object stay. -/
def nestedRest : Json :=
  .object [("key", .text "site"), ("units", .list [.text "", .object []])]

theorem prune_removes_nulls_nested :
    nestedNulls ≠ .null ∧ nestedNulls.prune = nestedRest ∧
    ¬ Inside .null nestedRest ∧ Inside .null nestedNulls ∧
    inventory nestedRest = (inventory nestedNulls).filter (!·.isNull) := by
  have hne : nestedNulls ≠ .null := Json.noConfusion
  have hrest : nestedNulls.prune = nestedRest := rfl
  obtain ⟨hgone, hsame, -, hlines⟩ := prune_removes_nulls nestedNulls
  refine ⟨hne, hrest, hrest ▸ (hgone hne).2, ?_, (hlines hne nestedRest).mpr hrest.symm⟩
  apply not_not.mp
  intro hinside
  have hprune := hsame.mpr hinside
  rw [hrest] at hprune
  simp [nestedNulls, nestedRest] at hprune

end MetadataCatalog.Json
