import MetadataCatalog.Text.WordChars
import MetadataCatalog.Text.Folding

/-!
# Tokens

A text is searched by its tokens: the maximal rows of word characters, folded. A combining mark
inside a word belongs to the word and leaves no trace in its token. Of a very long word only the
beginning counts.
-/

namespace MetadataCatalog.Tokens

/-- Whether a character continues the word before it. -/
def continues (c : Char) : Bool :=
  Text.isWordChar c || Text.isWordMark c

/-- The longest token, in bytes. -/
def tokenLimit : Nat := 32768

/-- As many characters from the beginning as so many bytes hold. -/
def shortened : Nat → List Char → List Char
  | _, [] => []
  | room, c :: cs => if c.utf8Size ≤ room then c :: shortened (room - c.utf8Size) cs else []

/-- The token of a word. -/
def ofWord (word : List Char) : String :=
  String.ofList (shortened tokenLimit ((word.filter (!Text.isWordMark ·)).map Text.foldChar))

/-- The tokens of a character sequence, in order. -/
def ofChars : List Char → List String
  | [] => []
  | c :: cs =>
    if Text.isWordChar c then
      ofWord (c :: cs.takeWhile continues) :: ofChars (cs.dropWhile continues)
    else ofChars cs
termination_by cs => cs.length
decreasing_by
  · have h := (List.dropWhile_sublist (l := cs) (p := continues)).length_le
    simp only [List.length_cons]
    omega
  · simp

/-- The tokens of a text, in order. -/
def ofText (s : String) : List String :=
  ofChars s.toList

/-- How often the tokens of a phrase, at least one, follow each other in a row of tokens; the
occurrences may overlap. -/
def occurrences (phrase : List String) : List String → Nat
  | [] => 0
  | token :: rest =>
    (if !phrase.isEmpty && phrase.isPrefixOf (token :: rest) then 1 else 0) +
      occurrences phrase rest

/-- Whether the tokens of a phrase, at least one, follow each other in a row of tokens. -/
def holds (phrase tokens : List String) : Bool :=
  occurrences phrase tokens != 0

end MetadataCatalog.Tokens
