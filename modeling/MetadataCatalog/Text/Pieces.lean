/-!
# Cutting and joining texts

A text is cut at every occurrence of a separating character, so a text with `n` separators has
`n + 1` pieces, some of them perhaps empty. Joining puts a separator between the pieces again.
-/

namespace MetadataCatalog.Text

/-- The pieces of a character sequence between the occurrences of `sep`. -/
def pieces (sep : Char) : List Char → List (List Char)
  | [] => [[]]
  | c :: cs =>
    if c = sep then [] :: pieces sep cs
    else match pieces sep cs with
      | [] => [[c]]
      | piece :: rest => (c :: piece) :: rest

/-- The pieces of a text between the occurrences of `sep`. -/
def cut (sep : Char) (s : String) : List String :=
  (pieces sep s.toList).map String.ofList

/-- The texts one after the other with `sep` between neighbours. -/
def join (sep : String) (texts : List String) : String :=
  String.intercalate sep texts

/-- What follows `start` in `s`, if `s` begins with it. -/
def stripStart? (start s : String) : Option String :=
  if start.toList.isPrefixOf s.toList then some (String.ofList (s.toList.drop start.length))
  else none

/-- A text with the ASCII capitals made small. -/
def lowerAscii (s : String) : String :=
  String.ofList (s.toList.map Char.toLower)

/-- Equality of texts up to the case of ASCII letters. -/
def sameIgnoringCase (a b : String) : Bool :=
  lowerAscii a == lowerAscii b

theorem toLower_toLower (c : Char) : c.toLower.toLower = c.toLower := by
  by_cases hcapital : c.val ≥ 'A'.val ∧ c.val ≤ 'Z'.val
  · -- a capital made small is no capital
    have hval : c.toLower.val = c.val + ('a'.val - 'A'.val) :=
      congrArg Char.val (dif_pos hcapital)
    have hsmall : ¬ (c.toLower.val ≥ 'A'.val ∧ c.toLower.val ≤ 'Z'.val) := by
      rw [hval]
      grind
    exact dif_neg hsmall
  · have hsame : c.toLower = c := dif_neg hcapital
    rw [hsame, hsame]

@[simp]
theorem lowerAscii_lowerAscii (s : String) : lowerAscii (lowerAscii s) = lowerAscii s := by
  unfold lowerAscii
  rw [String.toList_ofList, List.map_map]
  exact congrArg String.ofList (List.map_congr_left fun c _ => toLower_toLower c)

/-- There is always at least one piece. -/
theorem pieces_ne_nil (sep : Char) (cs : List Char) : pieces sep cs ≠ [] := by
  cases cs with
  | nil => simp [pieces]
  | cons c cs =>
    simp only [pieces]
    split
    · simp
    · split <;> simp

end MetadataCatalog.Text
