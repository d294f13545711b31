import MetadataCatalog.Fault
import MetadataCatalog.Text.Blank

/-!
# Search terms

A query is a row of terms with blanks between them: plain words, phrases between quotes, and words
after a dash, which are excluded. What a term is depends on its first character only, so a quote or
a dash inside a word is part of the word; a phrase runs to the next quote, or to the end if there is
none. Blank phrases and lone dashes count for nothing.
-/

namespace MetadataCatalog

/-- The terms of a query, each kind in order. -/
structure Terms where
  words : List String
  phrases : List String
  excluded : List String
  deriving DecidableEq, Repr

namespace Terms

/-- No terms. -/
def empty : Terms := ⟨[], [], []⟩

/-- The terms with a phrase, given as it stands between the quotes, in front. -/
def withPhrase (between : List Char) (terms : Terms) : Terms :=
  let phrase := Text.trimChars between
  if phrase = [] then terms else { terms with phrases := String.ofList phrase :: terms.phrases }

/-- The terms with a word or, if it begins with a dash, an excluded word in front. -/
def withWord (word : List Char) (terms : Terms) : Terms :=
  match word with
  | ['-'] => terms
  | '-' :: rest => { terms with excluded := String.ofList rest :: terms.excluded }
  | _ => { terms with words := String.ofList word :: terms.words }

/-- The terms of a character sequence. -/
def ofChars : List Char → Terms
  | [] => empty
  | c :: cs =>
    if Text.isBlank c then ofChars cs
    else if c = '"' then
      withPhrase (cs.takeWhile (· ≠ '"')) (ofChars ((cs.dropWhile (· ≠ '"')).drop 1))
    else
      withWord (c :: cs.takeWhile (!Text.isBlank ·))
        (ofChars ((cs.dropWhile (!Text.isBlank ·)).drop 1))
termination_by cs => cs.length
decreasing_by
  · simp
  all_goals
    simp only [List.length_drop, List.length_cons]
    have h := (List.dropWhile_sublist (l := cs) (p := fun x => decide (x ≠ '"'))).length_le
    have h' := (List.dropWhile_sublist (l := cs) (p := fun x => !Text.isBlank x)).length_le
    omega

/-- The terms of a query text. -/
def ofText (query : String) : Terms :=
  ofChars query.toList

end Terms

end MetadataCatalog
