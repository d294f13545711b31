/-!
# Blank characters and trimming

A character is blank when it has the property White_Space: the controls from TAB to CR, the space,
NEL, the no-break space and the spaces and separators of the general punctuation. Zero-width
spaces, the byte order mark and the information separators are not blank.

Trimming removes the blanks at both ends of a text; a text is blank when nothing is left of it.
-/

namespace MetadataCatalog.Text

/-! ## §1 The class -/

/-- The characters with the property White_Space. -/
def isBlank (c : Char) : Bool :=
  let n := c.toNat
  (9 ≤ n && n ≤ 13) || n == 0x20 || n == 0x85 || n == 0xA0 || n == 0x1680 ||
    (0x2000 ≤ n && n ≤ 0x200A) || n == 0x2028 || n == 0x2029 || n == 0x202F ||
    n == 0x205F || n == 0x3000

/-! ## §2 Trimming -/

/-- What is left of a character sequence without the blanks before and after it. -/
def trimChars (cs : List Char) : List Char :=
  ((cs.dropWhile isBlank).reverse.dropWhile isBlank).reverse

/-- A text without the blanks before and after it. -/
def trim (s : String) : String :=
  String.ofList (trimChars s.toList)

/-- A text of blanks alone, the empty text included. -/
def isBlankText (s : String) : Bool :=
  s.toList.all isBlank

end MetadataCatalog.Text
