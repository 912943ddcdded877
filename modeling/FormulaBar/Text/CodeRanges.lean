/-! # Code ranges — character properties as intervals

    A property of characters that no formula describes is given by its
    closed intervals of code points, in ascending order.  The tables that
    use this form are named for their property and follow version 17.0 of
    the character standard. -/

namespace FormulaBar

/-- Whether the character lies in one of the closed intervals. -/
def inRanges (ranges : List (Nat × Nat)) (c : Char) : Bool :=
  ranges.any fun range => range.1 ≤ c.toNat && c.toNat ≤ range.2

end FormulaBar
