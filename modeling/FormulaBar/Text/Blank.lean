import FormulaBar.Text.CodeRanges

/-! # Blank characters — what is trimmed off the ends of a text

    A character is blank when it has the property White_Space.  The
    property covers the spaces of all widths and the line and paragraph
    separators, and neither the zero-width space nor the byte order mark. -/

namespace FormulaBar

/-- The 25 characters with the property White_Space. -/
def blankRanges : List (Nat × Nat) :=
  [(0x09, 0x0D), (0x20, 0x20), (0x85, 0x85), (0xA0, 0xA0),
   (0x1680, 0x1680), (0x2000, 0x200A), (0x2028, 0x2029),
   (0x202F, 0x202F), (0x205F, 0x205F), (0x3000, 0x3000)]

/-- Whether the character has the property White_Space. -/
def isBlank (c : Char) : Bool :=
  inRanges blankRanges c

/-- The text without the blank characters at its two ends. -/
def trim (text : List Char) : List Char :=
  ((text.dropWhile isBlank).reverse.dropWhile isBlank).reverse

end FormulaBar
