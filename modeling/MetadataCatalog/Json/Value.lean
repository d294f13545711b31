/-!
# JSON values

A document is null, a truth value, a number, a text, a list or an object. Integers of 64 bits and
doubles are kept apart; the entries of an object are an ordered list of named values, and putting a
value under a name that is there already keeps the name's place.
-/

namespace MetadataCatalog

/-- A JSON value; the entries of an object stand in order. -/
inductive Json where
  | null
  | boolean (b : Bool)
  | integer (n : Int)
  | real (x : Float)
  | text (s : String)
  | list (items : List Json)
  | object (entries : List (String × Json))
  deriving Inhabited

namespace Json

/-- Whether a value is null. -/
def isNull : Json → Bool
  | .null => true
  | _ => false

/-- The text that a value is, if it is one. -/
def text? : Json → Option String
  | .text s => some s
  | _ => none

/-- The entries of an object, in order. -/
abbrev Entries := List (String × Json)

namespace Entries

/-- The value under a name. -/
def get? (name : String) : Entries → Option Json
  | [] => none
  | (k, v) :: rest => if k = name then some v else get? name rest

/-- Puts a value under a name: at the place of the name, or at the end if the name is new. -/
def put (name : String) (value : Json) : Entries → Entries
  | [] => [(name, value)]
  | (k, v) :: rest => if k = name then (k, value) :: rest else (k, v) :: put name value rest

/-- Puts the entries one after the other: of a repeated name the first place and the last value
remain. -/
def merge (entries : Entries) : Entries :=
  entries.foldl (fun merged (name, value) => put name value merged) []

/-- The names in order. -/
def names (entries : Entries) : List String :=
  entries.map Prod.fst

/-- What was put is found. -/
@[simp] theorem get?_put_self (name : String) (value : Json) (entries : Entries) :
    get? name (put name value entries) = some value := by
  induction entries with
  | nil => simp [put, get?]
  | cons e rest ih =>
    obtain ⟨k, v⟩ := e
    simp only [put]
    split <;> simp_all [get?]

/-- Putting a value leaves the values of other names. -/
theorem get?_put_of_ne {name other : String} (h : other ≠ name) (value : Json)
    (entries : Entries) : get? other (put name value entries) = get? other entries := by
  induction entries with
  | nil => simp [put, get?, Ne.symm h]
  | cons e rest ih =>
    obtain ⟨k, v⟩ := e
    simp only [put]
    split
    · rename_i hk; subst hk; simp [get?, Ne.symm h]
    · simp [get?, ih]

/-- A new name goes to the end. -/
theorem put_of_not_mem {name : String} {value : Json} {entries : Entries}
    (h : name ∉ names entries) : put name value entries = entries ++ [(name, value)] := by
  induction entries with
  | nil => rfl
  | cons e rest ih =>
    obtain ⟨k, v⟩ := e
    simp only [names, List.map_cons, List.mem_cons, not_or] at h
    simp [put, Ne.symm h.1, ih h.2]

/-- Entries of new and different names go to the end one after the other. -/
theorem foldl_put_of_nodup {merged entries : Entries} (h : (names (merged ++ entries)).Nodup) :
    entries.foldl (fun merged (name, value) => put name value merged) merged =
      merged ++ entries := by
  induction entries generalizing merged with
  | nil => exact (List.append_nil merged).symm
  | cons e rest ih =>
    obtain ⟨name, value⟩ := e
    have hnew : name ∉ names merged := by
      intro hmem
      rw [names, List.map_append, List.nodup_append] at h
      exact h.2.2 name hmem name List.mem_cons_self rfl
    have hshift : merged ++ (name, value) :: rest = (merged ++ [(name, value)]) ++ rest :=
      List.append_cons merged (name, value) rest
    rw [List.foldl_cons]
    simp only [put_of_not_mem hnew]
    rw [hshift]
    exact ih (hshift ▸ h)

/-- Entries of different names stay as they are. -/
theorem merge_of_nodup {entries : Entries} (h : (names entries).Nodup) : merge entries = entries :=
  foldl_put_of_nodup h

end Entries

end Json

end MetadataCatalog
