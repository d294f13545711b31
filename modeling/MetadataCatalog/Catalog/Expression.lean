import MetadataCatalog.Catalog.Terms
import MetadataCatalog.Text.Pieces

/-!
# Match expressions

A collection is searched with an expression: texts in quotes of which one must occur (`OR`), or all
must (`AND`), followed by texts that must not occur (`NOT`). A quote inside a text is written twice,
so a text ends at the first quote that is not followed by another one.

`Expression.ofQuery` gives the expression of a query, `Expression.text` writes it, and
`Expression.read?` reads a written expression back.
-/

namespace MetadataCatalog

/-- How the required texts of an expression are joined. -/
inductive Junction where
  | any
  | all
  deriving DecidableEq, Repr

/-- A match expression: what must occur and what must not. -/
structure Expression where
  junction : Junction
  required : List String
  excluded : List String
  deriving DecidableEq, Repr

namespace Expression

/-! ## §1 The expression of a query -/

/-- The expression of the terms of a query: the phrases if there are any, else the words. One text
alone needs no joining. -/
def ofTerms (terms : Terms) : Expression :=
  if terms.phrases = [] then ⟨.any, terms.words, terms.excluded⟩
  else ⟨if 2 ≤ terms.phrases.length then .all else .any, terms.phrases, terms.excluded⟩

/-- The expression of a query, which must have a word or a phrase. -/
def ofQuery (query : String) : Except Fault Expression :=
  let trimmed := Text.trim query
  if trimmed = "" then .error (.refused .emptyQuery)
  else
    let e := ofTerms (Terms.ofText trimmed)
    if e.required = [] then .error (.refused (.noSearchTerms query)) else .ok e

/-! ## §2 Writing -/

/-- A text with its quotes doubled. -/
def doubled (cs : List Char) : List Char :=
  cs.flatMap fun c => if c = '"' then ['"', '"'] else [c]

/-- A text between quotes. -/
def quoted (s : String) : List Char :=
  '"' :: doubled s.toList ++ ['"']

/-- What stands between two required texts. -/
def Junction.separator : Junction → List Char
  | .any => [' ', 'O', 'R', ' ']
  | .all => [' ', 'A', 'N', 'D', ' ']

/-- What stands before an excluded text. -/
def exclusion : List Char := [' ', 'N', 'O', 'T', ' ']

/-- The texts in quotes, each after the given characters. -/
def each (before : List Char) (texts : List String) : List Char :=
  texts.flatMap fun s => before ++ quoted s

/-- The written form of an expression. -/
def chars (e : Expression) : List Char :=
  '(' :: (each (Junction.separator e.junction) e.required).drop
      (Junction.separator e.junction).length ++
    [')'] ++ each exclusion e.excluded

/-- The written form of an expression. -/
def text (e : Expression) : String :=
  String.ofList e.chars

/-! ## §3 Reading -/

/-- A text up to its closing quote, and what follows the quote. -/
def closeQuote? : List Char → Option (List Char × List Char)
  | [] => none
  | '"' :: '"' :: cs => (closeQuote? cs).map fun (s, rest) => ('"' :: s, rest)
  | c :: cs =>
    if c = '"' then some ([], cs) else (closeQuote? cs).map fun (s, rest) => (c :: s, rest)

/-- A text in quotes, and what follows it. -/
def quoted? : List Char → Option (String × List Char)
  | '"' :: cs => (closeQuote? cs).map fun (s, rest) => (String.ofList s, rest)
  | _ => none

/-- What follows a closing quote is shorter than what stood before it. -/
theorem length_closeQuote? {cs s rest : List Char} (h : closeQuote? cs = some (s, rest)) :
    rest.length < cs.length := by
  fun_induction closeQuote? cs generalizing s rest with
  | case1 => simp at h
  | case2 cs ih =>
    obtain ⟨⟨s', rest'⟩, h', e⟩ := Option.map_eq_some_iff.1 h
    have := ih h'
    simp only [Prod.mk.injEq] at e
    simp only [List.length_cons, ← e.2]
    omega
  | case3 cs =>
    simp only [Option.some.injEq, Prod.mk.injEq] at h
    simp [← h.2]
  | case4 c cs _ hc ih =>
    obtain ⟨⟨s', rest'⟩, h', e⟩ := Option.map_eq_some_iff.1 h
    have := ih h'
    simp only [Prod.mk.injEq] at e
    simp only [List.length_cons, ← e.2]
    omega

/-- What follows a text in quotes is shorter than what stood before it. -/
theorem length_quoted? {cs rest : List Char} {s : String} (h : quoted? cs = some (s, rest)) :
    rest.length < cs.length := by
  unfold quoted? at h
  split at h
  · obtain ⟨⟨s', rest'⟩, h', e⟩ := Option.map_eq_some_iff.1 h
    have := length_closeQuote? h'
    simp only [Prod.mk.injEq] at e
    simp only [List.length_cons, ← e.2]
    omega
  · simp at h

/-- The texts in quotes that stand one after the other, each after the given characters, and what
follows the last of them. -/
def each? (before : List Char) (cs : List Char) : List String × List Char :=
  match _read : quoted? (cs.drop before.length) with
  | none => ([], cs)
  | some (s, rest) =>
    if before.isPrefixOf cs then
      let (more, rest') := each? before rest
      (s :: more, rest')
    else ([], cs)
termination_by cs.length
decreasing_by
  have := length_quoted? _read
  simp only [List.length_drop] at this
  omega

/-- The required texts between the brackets, and what follows them. -/
def required? (cs : List Char) : Option (Junction × List String × List Char) := do
  let (first, rest) ← quoted? cs
  let (alternatives, afterAny) := each? (Junction.separator .any) rest
  if alternatives ≠ [] then return (.any, first :: alternatives, afterAny)
  let (more, afterAll) := each? (Junction.separator .all) rest
  return (if more = [] then .any else .all, first :: more, afterAll)

/-- The expression that a character sequence is the written form of. A NUL ends the sequence. -/
def ofChars? (cs : List Char) : Option Expression :=
  match cs.takeWhile (· ≠ Char.ofNat 0) with
  | '(' :: inside => do
    let (junction, required, rest) ← required? inside
    match rest with
    | ')' :: outside =>
      match each? exclusion outside with
      | (excluded, []) => some ⟨junction, required, excluded⟩
      | _ => none
    | _ => none
  | _ => none

/-- The expression that a text is the written form of. -/
def read? (s : String) : Option Expression :=
  ofChars? s.toList

/-! ## §4 Size -/

/-- How deep the operators of an expression are nested: each exclusion is one level, and so is the
joining of several required texts. -/
def depth (e : Expression) : Nat :=
  (if 2 ≤ e.required.length then 1 else 0) + e.excluded.length

end Expression

end MetadataCatalog
