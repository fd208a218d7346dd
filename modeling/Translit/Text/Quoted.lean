import Translit.Unicode.GraphemeExtend
import Translit.Unicode.Unprintable

/-!
# Quoted text

Text inside a message stands between quotes, and what a reader could not see or would misread is
escaped.

* `hex`: a number in lowercase hexadecimal;
* `needsValue`: the characters that are written as their scalar value;
* `escapeChar`: a character of a quoted text;
* `quote`, `quoteChar`: a text in `"`, a character in `'`.
-/

namespace Translit.Text.Quoted

open Translit.Unicode (isGraphemeExtend isUnprintable)

/-- A number in lowercase hexadecimal without leading zeros. -/
def hex (n : Nat) : List Char := Nat.toDigits 16 n

/-- The halfwidth voicing marks of Katakana. They belong to the letter before them and yet stand in
a cell of their own. -/
def isHalfwidthMark (c : Char) : Bool := c == '\uff9e' || c == '\uff9f'

/-- The character is invisible, or would be drawn on top of the one before it. -/
def needsValue (c : Char) : Bool :=
  (isGraphemeExtend c && !isHalfwidthMark c) || isUnprintable c

/-- A character between two `delimiter`s. The delimiter and the backslash are escaped by a
backslash, four controls have a letter, and what a reader could not see is written as its scalar
value. -/
def escapeChar (delimiter c : Char) : List Char :=
  if c = '\x00' then ['\\', '0']
  else if c = '\t' then ['\\', 't']
  else if c = '\r' then ['\\', 'r']
  else if c = '\n' then ['\\', 'n']
  else if c = '\\' ∨ c = delimiter then ['\\', c]
  else if needsValue c then
    ['\\', 'u', '\x7b'] ++ hex c.toNat ++ ['\x7d']
  else [c]

/-- A text in double quotes. -/
def quote (cs : List Char) : String :=
  String.ofList ('"' :: cs.flatMap (escapeChar '"') ++ ['"'])

/-- A character in single quotes. -/
def quoteChar (c : Char) : String :=
  String.ofList ('\'' :: escapeChar '\'' c ++ ['\''])

end Translit.Text.Quoted
