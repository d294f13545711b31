import MetadataCatalog.Json.Value

/-!
# Pruning nulls

Pruning removes every null from the lists and objects of a document, at every depth. What is left
keeps its name and its order, and a list or an object that becomes empty stays.
-/

namespace MetadataCatalog.Json

mutual

/-- A document without the nulls inside it. -/
def prune : Json → Json
  | .list items => .list (pruneItems items)
  | .object entries => .object (pruneEntries entries)
  | value => value

/-- The items that are not null, pruned. -/
def pruneItems : List Json → List Json
  | [] => []
  | item :: rest => if item.isNull then pruneItems rest else prune item :: pruneItems rest

/-- The entries whose value is not null, pruned. -/
def pruneEntries : List (String × Json) → List (String × Json)
  | [] => []
  | (name, value) :: rest =>
    if value.isNull then pruneEntries rest else (name, prune value) :: pruneEntries rest

end

/-- Pruning a list of items is removing the nulls and pruning what is left. -/
theorem pruneItems_eq (items : List Json) :
    pruneItems items = (items.filter (!·.isNull)).map prune := by
  induction items with
  | nil => rfl
  | cons v rest ih => cases h : v.isNull <;> simp [pruneItems, h, ih]

/-- Pruning a list of entries is removing the nulls and pruning what is left. -/
theorem pruneEntries_eq (entries : List (String × Json)) :
    pruneEntries entries =
      (entries.filter (!·.2.isNull)).map fun e => (e.1, prune e.2) := by
  induction entries with
  | nil => rfl
  | cons e rest ih =>
    obtain ⟨k, v⟩ := e
    cases h : v.isNull <;> simp [pruneEntries, h, ih]

end MetadataCatalog.Json
