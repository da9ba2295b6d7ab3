import Phrasebook.Text.Range

/-!
# Blank characters

The characters with the `White_Space` property, and the text without the blanks at its two ends.
-/

namespace Phrasebook.Text

/-- The blank characters, as code point ranges in increasing order. -/
def blanks : Ranges :=
  [(0x9, 0xd), (0x20, 0x20), (0x85, 0x85), (0xa0, 0xa0), (0x1680, 0x1680), (0x2000, 0x200a),
   (0x2028, 0x2029), (0x202f, 0x202f), (0x205f, 0x205f), (0x3000, 0x3000)]

/-- A blank is any character with the `White_Space` property. -/
def isBlank (c : Char) : Bool :=
  blanks.covers c

/-- The text without its longest suffix of characters that satisfy `p`. -/
def dropEnd (p : Char → Bool) (cs : List Char) : List Char :=
  (cs.reverse.dropWhile p).reverse

/-- The text without the blanks at its two ends. -/
def trim (cs : List Char) : List Char :=
  dropEnd isBlank (cs.dropWhile isBlank)

end Phrasebook.Text
