import FormulaBar.Text.Combining
import FormulaBar.Text.Unprintable

/-! # Quoted text — a text shown unambiguously on one line

    Messages show a piece of the formula between double quotes.  The quote,
    the backslash and four controls are written as a backslash and a
    letter; any other character that would not show, or would attach to
    its neighbour, is written by its code point. -/

namespace FormulaBar

namespace Quoted

/-- The letter that stands for the character behind a backslash. -/
def letter? : Char → Option Char
  | '"' => some '"'
  | '\\' => some '\\'
  | '\t' => some 't'
  | '\r' => some 'r'
  | '\n' => some 'n'
  | '\x00' => some '0'
  | _ => none

/-- Whether the character cannot be shown as it is. -/
def isHidden (c : Char) : Bool :=
  if c.toNat < 0x7F then c.toNat < 0x20 else isCombining c || isUnprintable c

/-- The written form of one character. -/
def escape (c : Char) : List Char :=
  match letter? c with
  | some l => ['\\', l]
  | none =>
      if isHidden c then
        '\\' :: 'u' :: '\x7b' :: (Nat.toDigits 16 c.toNat ++ ['\x7d'])
      else [c]

end Quoted

/-- The text between double quotes, with escapes. -/
def quoted (text : String) : String :=
  String.ofList ('"' :: (text.toList.flatMap Quoted.escape ++ ['"']))

end FormulaBar
