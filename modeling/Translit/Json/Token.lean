/-!
# The tokens of a JSON document

A document is read character by character; `none` stands for a byte that belongs to no character,
which only a string may hold.

* `Token`: punctuation, the three words, numbers by their spelling, strings by their text;
* `Piece`, `Piece.text?`: the content of a string, and the text it denotes if it denotes one;
* `Lexer`, `Lexer.step`, `Lexer.finish?`: the reader, one character at a time;
* `Token.ofChars?`: the tokens of a document.
-/

namespace Translit.Json

/-- A token. A string whose escapes or bytes denote no text is a token all the same. -/
inductive Token
  | openObject
  | closeObject
  | openArray
  | closeArray
  | colon
  | comma
  | null
  | bool (b : Bool)
  | number (spelling : List Char)
  | string (text? : Option (List Char))
  deriving DecidableEq, Repr

/-- What a string holds: a character, an escaped half of a surrogate pair, or a stray byte. -/
inductive Piece
  | char (c : Char)
  | surrogate (unit : Nat)
  | stray
  deriving DecidableEq, Repr

/-- The scalar value of a surrogate pair. -/
def pairValue (high low : Nat) : Nat := 0x10000 + (high - 0xD800) * 0x400 + (low - 0xDC00)

/-- The text of a string. A high surrogate must be followed by a low one, a low one must follow a
high one, and there must be no stray byte. -/
def Piece.text? : List Piece → Option (List Char)
  | [] => some []
  | .char c :: ps => (c :: ·) <$> Piece.text? ps
  | .surrogate high :: .surrogate low :: ps =>
    if high < 0xDC00 ∧ 0xDC00 ≤ low then
      (Char.ofNat (pairValue high low) :: ·) <$> Piece.text? ps
    else none
  | .surrogate _ :: _ => none
  | .stray :: _ => none

/-- The piece that an escape of four hexadecimal digits stands for. -/
def Piece.ofUnit (unit : Nat) : Piece :=
  if 0xD800 ≤ unit ∧ unit < 0xE000 then .surrogate unit else .char (Char.ofNat unit)

/-- The value of a hexadecimal digit of either case. -/
def hexDigit? (c : Char) : Option Nat :=
  if '0' ≤ c ∧ c ≤ '9' then some (c.toNat - '0'.toNat)
  else if 'a' ≤ c ∧ c ≤ 'f' then some (c.toNat - 'a'.toNat + 10)
  else if 'A' ≤ c ∧ c ≤ 'F' then some (c.toNat - 'A'.toNat + 10)
  else none

/-- The character that a one-letter escape stands for. -/
def shortEscape? : Char → Option Char
  | '"' => some '"'
  | '\\' => some '\\'
  | '/' => some '/'
  | 'b' => some '\x08'
  | 'f' => some '\x0c'
  | 'n' => some '\n'
  | 'r' => some '\r'
  | 't' => some '\t'
  | _ => none

/-- The part of a number that has been read. A number may end after `zero`, `whole`, `fraction`
and `exponent`. -/
inductive NumberPart
  | minus
  | zero
  | whole
  | point
  | fraction
  | exponentMark
  | exponentSign
  | exponent
  deriving DecidableEq, Repr

/-- The number may end here. -/
def NumberPart.complete : NumberPart → Bool
  | .zero | .whole | .fraction | .exponent => true
  | _ => false

/-- The part after one more character, if the number goes on with it. -/
def NumberPart.next? (part : NumberPart) (c : Char) : Option NumberPart :=
  let mark := c == 'e' || c == 'E'
  match part with
  | .minus => if c = '0' then some .zero else if c.isDigit then some .whole else none
  | .zero => if c = '.' then some .point else if mark then some .exponentMark else none
  | .whole =>
    if c.isDigit then some .whole
    else if c = '.' then some .point
    else if mark then some .exponentMark
    else none
  | .point => if c.isDigit then some .fraction else none
  | .fraction =>
    if c.isDigit then some .fraction else if mark then some .exponentMark else none
  | .exponentMark =>
    if c.isDigit then some .exponent
    else if c = '+' ∨ c = '-' then some .exponentSign
    else none
  | .exponentSign => if c.isDigit then some .exponent else none
  | .exponent => if c.isDigit then some .exponent else none

/-- Where the reader stands: between tokens, or inside one with what has been read of it, last
first. -/
inductive Lexer
  | between
  | word (next : Char) (rest : List Char) (token : Token)
  | number (part : NumberPart) (read : List Char)
  | string (read : List Piece)
  | escape (read : List Piece)
  | hex (missing value : Nat) (read : List Piece)
  deriving DecidableEq, Repr

/-- JSON's white space. -/
def isBlank (c : Char) : Bool := c == ' ' || c == '\t' || c == '\n' || c == '\r'

/-- A character between two tokens: a token of its own, or where the token it begins leads. -/
def Lexer.begin? (c : Char) : Option (List Token × Lexer) :=
  if isBlank c then some ([], .between)
  else match c with
    | '\x7b' => some ([.openObject], .between)
    | '\x7d' => some ([.closeObject], .between)
    | '[' => some ([.openArray], .between)
    | ']' => some ([.closeArray], .between)
    | ':' => some ([.colon], .between)
    | ',' => some ([.comma], .between)
    | '"' => some ([], .string [])
    | 'n' => some ([], .word 'u' ['l', 'l'] .null)
    | 't' => some ([], .word 'r' ['u', 'e'] (.bool true))
    | 'f' => some ([], .word 'a' ['l', 's', 'e'] (.bool false))
    | '-' => some ([], .number .minus ['-'])
    | '0' => some ([], .number .zero ['0'])
    | c => if c.isDigit then some ([], .number .whole [c]) else none

/-- One more character: the tokens it completes and the new state. -/
def Lexer.step : Lexer → Option Char → Option (List Token × Lexer)
  | .between, some c => begin? c
  | .between, none => none
  | .word next rest token, some c =>
    if c = next then
      match rest with
      | [] => some ([token], .between)
      | next :: rest => some ([], .word next rest token)
    else none
  | .word .., none => none
  | .number part read, some c =>
    match part.next? c with
    | some part => some ([], .number part (c :: read))
    | none =>
      if part.complete then do
        let (tokens, next) ← begin? c
        some (.number read.reverse :: tokens, next)
      else none
  | .number .., none => none
  | .string read, some c =>
    if c = '"' then some ([.string (Piece.text? read.reverse)], .between)
    else if c = '\\' then some ([], .escape read)
    else if c < ' ' then none
    else some ([], .string (.char c :: read))
  | .string read, none => some ([], .string (.stray :: read))
  | .escape read, some c =>
    if c = 'u' then some ([], .hex 3 0 read)
    else (shortEscape? c).map fun c => ([], .string (.char c :: read))
  | .escape _, none => none
  | .hex missing value read, some c => do
    let value := value * 16 + (← hexDigit? c)
    match missing with
    | 0 => some ([], .string (Piece.ofUnit value :: read))
    | missing + 1 => some ([], .hex missing value read)
  | .hex .., none => none

/-- The tokens that the end of the document completes. -/
def Lexer.finish? : Lexer → Option (List Token)
  | .between => some []
  | .number part read => if part.complete then some [.number read.reverse] else none
  | _ => none

/-- The tokens of the rest of a document. -/
def Lexer.run? : Lexer → List (Option Char) → Option (List Token)
  | state, [] => state.finish?
  | state, c :: cs => do
    let (tokens, next) ← state.step c
    return tokens ++ (← next.run? cs)

/-- The tokens of a document. -/
def Token.ofChars? (cs : List (Option Char)) : Option (List Token) := Lexer.between.run? cs

end Translit.Json
