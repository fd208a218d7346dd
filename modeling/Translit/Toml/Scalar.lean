import Translit.Toml.Reader
import Translit.Toml.Value

/-!
# Keys and simple values

* `lineEnd`, `blanks`, `comment`, `spacing`: what may stand between tokens;
* `string`: the four kinds of strings;
* `simpleKey`, `dottedKey`: keys;
* `number`, `dateTime`: numbers and times, which are checked and kept by their spelling;
* `scalar`: any value without parts.
-/

namespace Translit.Toml

open Reader

/-! ## Between tokens -/

/-- A blank or a tab. -/
def isBlank (c : Char) : Bool := c == ' ' || c == '\t'

/-- Blanks and tabs. -/
def blanks : Reader Unit := discard (takeWhile isBlank)

/-- The end of a line, as a line feed. -/
def lineEnd : Reader Char := char '\n' <|> (char '\r' *> char '\n')

/-- A character that a comment may hold: any but the controls, of which the tab is allowed. -/
def isPrintable (c : Char) : Bool := c == '\t' || (' ' ≤ c && c ≠ '\x7f')

/-- A comment, up to the end of its line. -/
def comment : Reader Unit := discard (char '#' *> takeWhile isPrintable)

/-- Blanks, comments and line ends, as they may stand in an array. -/
def spacing : Reader Unit := do
  blanks
  discard (many (optional comment *> lineEnd <* blanks))

/-! ## Strings -/

/-- The value of a sequence of digits. -/
def digitsValue (base : Nat) (ds : List Nat) : Nat := ds.foldl (fun n d => n * base + d) 0

/-- A digit of a base up to sixteen. -/
def digit (base : Nat) : Reader Nat := fun cs => do
  let (c, cs) ← satisfying (fun c => c.isAlphanum) cs
  let value :=
    if c.isDigit then c.toNat - '0'.toNat else c.toLower.toNat - 'a'.toNat + 10
  if value < base then some (value, cs) else none

/-- A given number of readings. -/
def times {α : Type} (r : Reader α) : Nat → Reader (List α)
  | 0 => pure []
  | n + 1 => (· :: ·) <$> r <*> times r n

/-- The scalar value of so many hexadecimal digits. -/
def scalarValue (width : Nat) : Reader Char := do
  let n := digitsValue 16 (← times (digit 16) width)
  if n.isValidChar then pure (Char.ofNat n) else failure

/-- A character behind a backslash. -/
def escaped : Reader Char := do
  match ← satisfying fun _ => true with
  | 'b' => return '\x08'
  | 'f' => return '\x0c'
  | 'n' => return '\n'
  | 'r' => return '\r'
  | 't' => return '\t'
  | '"' => return '"'
  | '\\' => return '\\'
  | 'u' => scalarValue 4
  | 'U' => scalarValue 8
  | _ => failure

/-- A character that stands for itself between quotation marks. -/
def isBasic (c : Char) : Bool := isPrintable c && c != '"' && c != '\\'

/-- A character that stands for itself between apostrophes. -/
def isLiteral (c : Char) : Bool := isPrintable c && c != '\''

/-- A string between quotation marks. -/
def basicString : Reader (List Char) :=
  char '"' *> many (satisfying isBasic <|> (char '\\' *> escaped)) <* char '"'

/-- A string between apostrophes. -/
def literalString : Reader (List Char) := char '\'' *> takeWhile isLiteral <* char '\''

/-- One or two quotation marks inside a string that ends in three. -/
def innerQuotes (mark : Char) : Reader (List Char) := fun cs =>
  let run := cs.takeWhile (· == mark)
  if run.length = 1 ∨ run.length = 2 then some (run, cs.drop run.length) else none

/-- The three quotation marks at the end of a string; up to two more in front of them are part of
the string. -/
def closingQuotes (mark : Char) : Reader (List Char) := fun cs =>
  let run := (cs.takeWhile (· == mark)).length
  if 3 ≤ run then
    let inner := min (run - 3) 2
    some (List.replicate inner mark, cs.drop (inner + 3))
  else none

/-- A backslash at the end of a line, with all blanks and line ends that follow. -/
def lineContinuation : Reader (List Char) := do
  discard (char '\\' *> blanks *> lineEnd)
  discard (many (satisfying isBlank <|> lineEnd))
  return []

/-- A string over several lines between three quotation marks. A line end right behind the first
three is left out. -/
def multilineBasicString : Reader (List Char) := do
  spelled "\"\"\""
  discard (optional lineEnd)
  let pieces ← many <|
    (List.singleton <$> satisfying isBasic) <|> (List.singleton <$> lineEnd) <|>
      lineContinuation <|> (List.singleton <$> (char '\\' *> escaped)) <|> innerQuotes '"'
  return pieces.flatten ++ (← closingQuotes '"')

/-- A string over several lines between three apostrophes. A line end right behind the first three
is left out. -/
def multilineLiteralString : Reader (List Char) := do
  spelled "'''"
  discard (optional lineEnd)
  let pieces ← many <|
    (List.singleton <$> satisfying isLiteral) <|> (List.singleton <$> lineEnd) <|> innerQuotes '\''
  return pieces.flatten ++ (← closingQuotes '\'')

/-- A string of any kind. -/
def string : Reader (List Char) :=
  multilineBasicString <|> basicString <|> multilineLiteralString <|> literalString

/-! ## Keys -/

/-- A character of a key without quotation marks. -/
def isBare (c : Char) : Bool := c.isAlphanum || c == '_' || c == '-'

/-- A key without dots. -/
def simpleKey : Reader Key := takeWhile1 isBare <|> basicString <|> literalString

/-- The number of parts a dotted key stays below, as do values in values. -/
def depthLimit : Nat := 80

/-- A dotted key: the way to it and its last part, with blanks around each part. -/
def dottedKey : Reader (List Key × Key) := do
  let parts ← separated (blanks *> simpleKey <* blanks) '.'
  match parts.getLast? with
  | some key => if parts.length < depthLimit then pure (parts.dropLast, key) else failure
  | none => failure

/-! ## Numbers -/

/-- A sign, which may be missing. -/
def sign : Reader (Option Char) := optional (char '+' <|> char '-')

/-- One or more digits, with single underscores between them. -/
def digits (base : Nat) : Reader (List Nat) :=
  (· :: ·) <$> digit base <*> many (digit base <|> (char '_' *> digit base))

/-- A decimal number without a leading zero. -/
def wholeDigits : Reader (List Nat) := (char '0' *> pure [0]) <|> digits 10

/-- The numbers an integer may have: those of 64 bits with a sign. -/
def fitsInteger (negative : Bool) (n : Nat) : Bool :=
  if negative then n ≤ Nat.pow 2 63 else n < Nat.pow 2 63

/-- An integer in a base that a letter names. -/
def basedInteger : Reader Unit := do
  let n ←
    (spelled "0x" *> digitsValue 16 <$> digits 16) <|>
    (spelled "0o" *> digitsValue 8 <$> digits 8) <|>
    (spelled "0b" *> digitsValue 2 <$> digits 2)
  if fitsInteger false n then pure () else failure

/-- A decimal integer. -/
def decimalInteger : Reader Unit := do
  let negative := (← sign) == some '-'
  let n := digitsValue 10 (← wholeDigits)
  if fitsInteger negative n then pure () else failure

/-- The exponent of a number, with its mark. -/
def exponent : Reader Int := do
  discard (char 'e' <|> char 'E')
  let negative := (← sign) == some '-'
  let n := digitsValue 10 (← digits 10)
  return if negative then -(n : Int) else n

/-- The number `n · 10 ^ e` rounds to a double below infinity. The digits of the number decide
unless they are few hundred. -/
def fitsDouble (n : Nat) (e : Int) : Bool :=
  let width : Int := (Nat.toDigits 10 n).length
  if n = 0 ∨ width + e < 0 then true
  else if 400 < width + e then false
  else
    let bound := Nat.pow 2 1024 - Nat.pow 2 970
    if 0 ≤ e then n * Nat.pow 10 e.toNat < bound else n < bound * Nat.pow 10 (-e).toNat

/-- A number with a fraction or an exponent. -/
def fractional : Reader Unit := do
  let negative := (← sign) == some '-'
  let whole ← wholeDigits
  let fraction ← optional (char '.' *> digits 10)
  let exponent ← if fraction.isSome then optional exponent else some <$> exponent
  let fraction := fraction.getD []
  let n := digitsValue 10 (whole ++ fraction)
  if negative || fitsDouble n (exponent.getD 0 - fraction.length) then pure () else failure

/-- Infinity, or what is not a number. -/
def nonfinite : Reader Unit := discard sign *> (spelled "inf" <|> spelled "nan")

/-- A number. -/
def number : Reader Unit := fractional <|> nonfinite <|> basedInteger <|> decimalInteger

/-! ## Dates and times -/

/-- A number of so many digits, in a range. -/
def field (width least greatest : Nat) : Reader Nat := do
  let n := digitsValue 10 (← times (digit 10) width)
  if least ≤ n ∧ n ≤ greatest then pure n else failure

/-- The days of a month. -/
def daysInMonth (year month : Nat) : Nat :=
  if month = 2 then
    if year % 4 = 0 ∧ (year % 100 ≠ 0 ∨ year % 400 = 0) then 29 else 28
  else if month = 4 ∨ month = 6 ∨ month = 9 ∨ month = 11 then 30
  else 31

/-- A day of the calendar. -/
def date : Reader Unit := do
  let year ← field 4 0 9999
  discard (char '-')
  let month ← field 2 1 12
  discard (char '-')
  discard (field 2 1 (daysInMonth year month))

/-- A time of day. -/
def timeOfDay : Reader Unit := do
  discard (field 2 0 23 <* char ':')
  discard (field 2 0 59 <* char ':')
  discard (field 2 0 60)
  discard (optional (char '.' *> takeWhile1 Char.isDigit))

/-- The distance from universal time. -/
def offset : Reader Unit :=
  discard (char 'Z' <|> char 'z') <|>
    discard ((char '+' <|> char '-') *> field 2 0 23 *> char ':' *> field 2 0 59)

/-- A date, a time of day, or both. -/
def dateTime : Reader Unit := do
  let timeAfterDate :=
    (char 'T' <|> char 't' <|> char ' ') *> timeOfDay *> discard (optional offset)
  (date *> discard (optional timeAfterDate)) <|> timeOfDay

/-! ## Simple values -/

/-- What a reader takes, as it is spelled. -/
def spelling (r : Reader Unit) : Reader (List Char) := fun cs => do
  let (_, rest) ← r cs
  some (cs.take (cs.length - rest.length), rest)

/-- A value without parts. -/
def scalar : Reader Value :=
  (Value.string <$> string) <|>
  (spelled "true" *> pure (.boolean true)) <|>
  (spelled "false" *> pure (.boolean false)) <|>
  (Value.time <$> spelling dateTime) <|>
  (Value.number <$> spelling number)

end Translit.Toml
