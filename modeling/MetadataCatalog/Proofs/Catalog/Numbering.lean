import MetadataCatalog.Catalog.FilesTables
import Mathlib.Data.List.Induction
import Mathlib.Data.List.Nodup
import Mathlib.Data.List.TakeWhile

/-!
# Numbering by first occurrence

A numbered table that takes in every new item and passes over every old one gives the numbers one,
two, three and so on to the different items in the order in which they first occur. `ordinal` is the
number that an item gets, and `Numbered.ofList` is the table that has taken in a list of different
items. Nothing that comes later changes the number of an item (`ordinal_append_of_mem`), and no two
items have one number (`ordinal_inj`).
-/

namespace MetadataCatalog

/-! ## §1 First occurrences -/

section FirstOccurrences

variable {α β : Type} [BEq α] [LawfulBEq α] [BEq β] [LawfulBEq β]

/-- A further item counts only if it is new. -/
theorem eraseDups_concat (l : List α) (a : α) :
    (l ++ [a]).eraseDups = if a ∈ l then l.eraseDups else l.eraseDups ++ [a] := by
  rw [List.eraseDups_append]
  by_cases h : a ∈ l
  · simp [List.removeAll, h]
  · simp [List.removeAll, h, List.eraseDups_cons]

theorem nodup_eraseDups (l : List α) : l.eraseDups.Nodup := by
  induction l using List.reverseRecOn with
  | nil => simp
  | append_singleton l a ih =>
    rw [eraseDups_concat]
    split
    · exact ih
    · next h =>
      refine List.nodup_append.mpr ⟨ih, List.nodup_singleton a, ?_⟩
      -- the last item is new, so it differs from all before it
      intro b hb c hc hbc
      rw [List.mem_singleton] at hc
      exact h (hc ▸ hbc ▸ List.mem_eraseDups.mp hb)

/-- The different items stand in the order in which they first occur. -/
theorem pairwise_eraseDups (l : List α) :
    l.eraseDups.Pairwise fun a b => l.idxOf a < l.idxOf b := by
  induction l using List.reverseRecOn with
  | nil => simp
  | append_singleton l c ih =>
    -- a further item does not move the first occurrences of the others
    have hkeep : ∀ a ∈ l.eraseDups, (l ++ [c]).idxOf a = l.idxOf a := fun a ha =>
      List.idxOf_append_of_mem (List.mem_eraseDups.mp ha)
    have hold : l.eraseDups.Pairwise fun a b => (l ++ [c]).idxOf a < (l ++ [c]).idxOf b := by
      refine ih.imp_of_mem fun ha hb hab => ?_
      rw [hkeep _ ha, hkeep _ hb]
      exact hab
    rw [eraseDups_concat]
    split
    · exact hold
    · next hc =>
      refine List.pairwise_append.mpr ⟨hold, List.pairwise_singleton _ _, ?_⟩
      intro a ha b hb
      rw [List.mem_singleton] at hb
      subst hb
      rw [hkeep a ha, List.idxOf_append_of_notMem hc]
      have := List.idxOf_lt_length_of_mem (List.mem_eraseDups.mp ha)
      omega

/-- The different ones among some of the items are some of the different items. -/
theorem eraseDups_filter (p : α → Bool) (l : List α) :
    (l.filter p).eraseDups = l.eraseDups.filter p := by
  induction l using List.reverseRecOn with
  | nil => simp
  | append_singleton l a ih =>
    rw [List.filter_append, eraseDups_concat]
    cases hp : p a with
    | false =>
      -- an item that is left out matters on neither side
      have hnot : [a].filter p = [] := by simp [hp]
      rw [hnot, List.append_nil, ih]
      split <;> simp [List.filter_append, hp]
    | true =>
      have hone : [a].filter p = [a] := by simp [hp]
      have hmem : a ∈ l.filter p ↔ a ∈ l := by simp [hp]
      rw [hone, eraseDups_concat, ih]
      by_cases h : a ∈ l
      · rw [if_pos (hmem.mpr h), if_pos h]
      · rw [if_neg (fun h' => h (hmem.mp h')), if_neg h, List.filter_append, hone]

/-- Where different items have different images, items and images first occur together. -/
theorem eraseDups_map {f : α → β} {l : List α}
    (h : ∀ a ∈ l, ∀ b ∈ l, f a = f b → a = b) :
    (l.map f).eraseDups = l.eraseDups.map f := by
  induction l using List.reverseRecOn with
  | nil => simp
  | append_singleton l a ih =>
    have hl : ∀ b ∈ l, ∀ c ∈ l, f b = f c → b = c := fun b hb c hc =>
      h b (List.mem_append_left _ hb) c (List.mem_append_left _ hc)
    -- the image of the last item is new exactly when the item is
    have hmem : f a ∈ l.map f ↔ a ∈ l := by
      constructor
      · intro hfa
        obtain ⟨b, hb, heq⟩ := List.mem_map.mp hfa
        have hab := h b (List.mem_append_left _ hb) a (by simp) heq
        exact hab ▸ hb
      · exact List.mem_map_of_mem
    rw [List.map_append, List.map_singleton, eraseDups_concat, eraseDups_concat, ih hl]
    by_cases ha : a ∈ l
    · rw [if_pos (hmem.mpr ha), if_pos ha]
    · rw [if_neg (fun h' => ha (hmem.mp h')), if_neg ha, List.map_append, List.map_singleton]

/-- An item that no other one looks like is found where its image is. -/
theorem idxOf_map_of_inj {f : α → β} {l : List α} {a : α} (h : ∀ b ∈ l, f b = f a → b = a) :
    (l.map f).idxOf (f a) = l.idxOf a := by
  induction l with
  | nil => rfl
  | cons b rest ih =>
    have hrest := ih fun c hc => h c (List.mem_cons_of_mem _ hc)
    by_cases hb : b = a
    · simp [hb]
    · have hfb : f b ≠ f a := fun heq => hb (h b List.mem_cons_self heq)
      rw [List.map_cons, List.idxOf_cons_ne _ hfb, List.idxOf_cons_ne _ hb, hrest]

/-- The number of an item among those of a list, which are counted from one as they first occur; a
new item has the number that comes next. -/
def ordinal (l : List α) (a : α) : Nat :=
  l.eraseDups.idxOf a + 1

theorem ordinal_of_not_mem {l : List α} {a : α} (h : a ∉ l) :
    ordinal l a = l.eraseDups.length + 1 := by
  have hnot : a ∉ l.eraseDups := fun h' => h (List.mem_eraseDups.mp h')
  rw [ordinal, List.idxOf_eq_length hnot]

/-- What comes later does not change the number of an item. -/
theorem ordinal_append_of_mem {l : List α} {a : α} (h : a ∈ l) (more : List α) :
    ordinal (l ++ more) a = ordinal l a := by
  rw [ordinal, List.eraseDups_append, List.idxOf_append, if_pos (List.mem_eraseDups.mpr h),
    ordinal]

/-- A new item keeps the number that it is given. -/
theorem ordinal_concat_self (l : List α) (a : α) : ordinal (l ++ [a]) a = ordinal l a := by
  by_cases h : a ∈ l
  · exact ordinal_append_of_mem h [a]
  · have hnot : a ∉ l.eraseDups := fun h' => h (List.mem_eraseDups.mp h')
    rw [ordinal_of_not_mem h, ordinal, eraseDups_concat, if_neg h, List.idxOf_append, if_neg hnot]
    simp

/-- No two items have one number. -/
theorem ordinal_inj {l : List α} {a b : α} (h : a ∈ l) : ordinal l a = ordinal l b ↔ a = b := by
  rw [ordinal, ordinal, Nat.add_right_cancel_iff]
  exact List.idxOf_inj (List.mem_eraseDups.mpr h)

/-- The number of an item is one more than there are different items before it first occurs. -/
theorem ordinal_eq_takeWhile (l : List α) (a : α) :
    ordinal l a = (l.takeWhile (· != a)).eraseDups.length + 1 := by
  induction l using List.reverseRecOn with
  | nil => simp [ordinal]
  | append_singleton l b ih =>
    by_cases h : a ∈ l
    · -- the first occurrence is in front of the last item
      have hlen : (l.takeWhile (· != a)).length ≠ l.length := by
        intro hlen
        have hself := (List.takeWhile_prefix (p := (· != a)) (l := l)).eq_of_length hlen
        simpa using List.takeWhile_eq_self_iff.mp hself a h
      rw [ordinal_append_of_mem h, ih, List.takeWhile_append, if_neg hlen]
    · have hall : l.takeWhile (· != a) = l :=
        List.takeWhile_eq_self_iff.mpr fun x hx => by
          simpa using fun hxa : x = a => h (hxa ▸ hx)
      rw [List.takeWhile_append, if_pos (by rw [hall])]
      by_cases hb : b = a
      · subst hb
        rw [ordinal_concat_self, ordinal_of_not_mem h]
        simp
      · have hnot : a ∉ l ++ [b] := by
          simp [h, Ne.symm hb]
        rw [ordinal_of_not_mem hnot]
        simp [hb]

end FirstOccurrences

/-! ## §2 Tables made of lists -/

namespace Numbered

variable {α : Type}

/-- The table that has taken in the items of a list one after the other. -/
def ofList (l : List α) : Numbered α :=
  ⟨(l.zipIdx 1).map Prod.swap, l.length⟩

@[simp]
theorem size_ofList (l : List α) : (ofList l).size = l.length := by
  simp [size, ofList]

theorem add_ofList (l : List α) (a : α) : (ofList l).add a = ofList (l ++ [a]) := by
  simp [add, ofList, List.zipIdx_append, Nat.add_comm]

/-- What the rows of a table hold is what has been taken in. -/
theorem filterMap_rows_ofList {β : Type} (f : α → Option β) (l : List α) :
    ((ofList l).rows.filterMap fun row => f row.2) = l.filterMap f := by
  have hrows : (ofList l).rows.map Prod.snd = l := by
    simp only [ofList, List.map_map]
    exact List.zipIdx_map_fst 1 l
  conv_rhs => rw [← hrows, List.filterMap_map]
  rfl

variable [DecidableEq α]

/-- The number of the first row with given contents or, if there is none, of the next row. -/
def numberFor (t : Numbered α) (contents : α) : Nat :=
  (t.numberOf? contents).getD (t.last + 1)

/-- The first row with given contents, when the rows are numbered from anywhere on. -/
theorem find?_zipIdx_swap (l : List α) (start : Nat) (a : α) :
    (((l.zipIdx start).map Prod.swap).find? fun row => row.2 = a).map Prod.fst =
      if a ∈ l then some (l.idxOf a + start) else none := by
  induction l generalizing start with
  | nil => rfl
  | cons b l ih =>
    rw [List.zipIdx_cons, List.map_cons, List.find?_cons]
    by_cases hb : b = a
    · simp [hb]
    · have ha : a ≠ b := fun h => hb h.symm
      simp only [Prod.swap_prod_mk, hb, decide_false, ih, List.mem_cons, ha, false_or]
      -- one row further down the number is one higher, whatever the table begins with
      rw [List.idxOf_cons_ne _ hb, Nat.succ_add_eq_add_succ]

theorem numberOf?_ofList (l : List α) (a : α) :
    (ofList l).numberOf? a = if a ∈ l then some (l.idxOf a + 1) else none :=
  find?_zipIdx_swap l 1 a

/-- A table that has taken in a list without its repetitions finds each item under its ordinal. -/
theorem numberOf?_ofList_eraseDups (l : List α) (a : α) :
    (ofList l.eraseDups).numberOf? a = if a ∈ l then some (ordinal l a) else none := by
  rw [numberOf?_ofList]
  simp only [List.mem_eraseDups, ordinal]

theorem addNew_ofList (l : List α) (a : α) :
    (ofList l).addNew a = if a ∈ l then ofList l else ofList (l ++ [a]) := by
  rw [addNew, numberOf?_ofList]
  by_cases h : a ∈ l
  · simp [h]
  · simp [h, add_ofList]

/-- A new item gets its ordinal, and an old one has it. -/
theorem numberFor_ofList_eraseDups (l : List α) (a : α) :
    (ofList l.eraseDups).numberFor a = ordinal l a := by
  rw [numberFor, numberOf?_ofList_eraseDups]
  by_cases h : a ∈ l
  · rw [if_pos h, Option.getD_some]
  · rw [if_neg h, Option.getD_none, ordinal_of_not_mem h, ofList]

theorem addNew_ofList_eraseDups (l : List α) (a : α) :
    (ofList l.eraseDups).addNew a = ofList (l ++ [a]).eraseDups := by
  rw [addNew_ofList, eraseDups_concat]
  simp only [List.mem_eraseDups]
  split <;> rfl

/-! ## §3 Tables of images

The rows of some tables stand for other items. As long as no two of these items have one row, the
table counts rows as it would count the items. -/

section Images

variable {β : Type} [BEq β] [LawfulBEq β] (f : β → α) (l : List β) (b : β)

theorem numberOf?_ofList_map (h : ∀ c ∈ l, f c = f b → c = b) :
    (ofList (l.eraseDups.map f)).numberOf? (f b) =
      if b ∈ l then some (ordinal l b) else none := by
  have hmem : f b ∈ l.eraseDups.map f ↔ b ∈ l := by
    constructor
    · intro hb
      obtain ⟨c, hc, heq⟩ := List.mem_map.mp hb
      have hc := List.mem_eraseDups.mp hc
      exact h c hc heq ▸ hc
    · exact fun hb => List.mem_map_of_mem (List.mem_eraseDups.mpr hb)
  have hidx : (l.eraseDups.map f).idxOf (f b) = l.eraseDups.idxOf b :=
    idxOf_map_of_inj fun c hc => h c (List.mem_eraseDups.mp hc)
  rw [numberOf?_ofList]
  by_cases hb : b ∈ l
  · rw [if_pos (hmem.mpr hb), if_pos hb, hidx, ordinal]
  · rw [if_neg (fun h' => hb (hmem.mp h')), if_neg hb]

theorem numberFor_ofList_map (h : ∀ c ∈ l, f c = f b → c = b) :
    (ofList (l.eraseDups.map f)).numberFor (f b) = ordinal l b := by
  rw [numberFor, numberOf?_ofList_map f l b h]
  by_cases hb : b ∈ l
  · rw [if_pos hb, Option.getD_some]
  · rw [if_neg hb, Option.getD_none, ordinal_of_not_mem hb, ofList, List.length_map]

theorem addNew_ofList_map (h : ∀ c ∈ l, f c = f b → c = b) :
    (ofList (l.eraseDups.map f)).addNew (f b) = ofList ((l ++ [b]).eraseDups.map f) := by
  rw [addNew, numberOf?_ofList_map f l b h, eraseDups_concat]
  by_cases hb : b ∈ l
  · simp [hb]
  · simp [hb, add_ofList]

end Images

end Numbered

end MetadataCatalog
