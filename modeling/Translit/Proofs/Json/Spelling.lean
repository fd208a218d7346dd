import Mathlib.Data.List.Forall2
import Mathlib.Tactic.Common
import Translit.Json.Token

/-!
# Spellings of JSON tokens

JSON leaves much open in writing: white space between tokens, and several escapes for a character.
What may be written is said here by a grammar that does not mention the reader.

* `Piece.Spelled`, `Piece.Denote`: the escapes of a string, and the text they stand for;
* `IsNumber`: the spelling of a number;
* `Token.Spelled`, `Token.Written`: a token, and a list of tokens with white space around;
* `Piece.Denote.text?`, `Piece.denote_of_text?`: the text that is read in a string.
-/

namespace Translit.Json

/-! ## Strings -/

/-- The letters of short escapes, and the characters they stand for. -/
def escapeLetters : List (Char × Char) := [
  ('"', '"'), ('\\', '\\'), ('/', '/'), ('b', '\x08'), ('f', '\x0c'), ('n', '\n'), ('r', '\r'),
  ('t', '\t')]

/-- The hexadecimal digits with their values, small letters and capitals. -/
def hexDigits : List (Nat × Char) :=
  (List.range 16).zip "0123456789abcdef".toList ++ (List.range 16).zip "0123456789ABCDEF".toList

/-- The character is a hexadecimal digit of the value `n`. -/
def IsHexDigit (n : Nat) (c : Char) : Prop := (n, c) ∈ hexDigits

/-- Four hexadecimal digits of the value `n`. -/
def IsUnit (n : Nat) (ds : List Char) : Prop :=
  n < 0x10000 ∧ List.Forall₂ IsHexDigit [n / 4096, n / 256 % 16, n / 16 % 16, n % 16] ds

/-- A piece of a string: a character as it is, unless it is a quote, a backslash or a control, or
escaped by a letter or by four digits; half a surrogate pair by four digits. -/
inductive Piece.Spelled : Piece → List Char → Prop
  | plain {c : Char} (quote : c ≠ '"') (backslash : c ≠ '\\') (control : ' ' ≤ c) :
      Spelled (.char c) [c]
  | letter {l c : Char} (h : (l, c) ∈ escapeLetters) : Spelled (.char c) ['\\', l]
  | unit {c : Char} {ds : List Char} (h : IsUnit c.toNat ds) :
      Spelled (.char c) ('\\' :: 'u' :: ds)
  | half {n : Nat} {ds : List Char} (low : 0xD800 ≤ n) (high : n < 0xE000) (h : IsUnit n ds) :
      Spelled (.surrogate n) ('\\' :: 'u' :: ds)

/-- The pieces stand for the text: each for a character, or two surrogates for one beyond the
first plane. -/
inductive Piece.Denote : List Piece → List Char → Prop
  | nil : Denote [] []
  | char {c : Char} {ps : List Piece} {cs : List Char} (tail : Denote ps cs) :
      Denote (.char c :: ps) (c :: cs)
  | pair {c : Char} {ps : List Piece} {cs : List Char} (h : 0x10000 ≤ c.toNat)
      (tail : Denote ps cs) :
      Denote (.surrogate (0xD800 + (c.toNat - 0x10000) / 0x400) ::
        .surrogate (0xDC00 + (c.toNat - 0x10000) % 0x400) :: ps) (c :: cs)

/-! ## Numbers -/

/-- One digit or more. -/
def IsDigits (ds : List Char) : Prop := ds ≠ [] ∧ ∀ d ∈ ds, d.isDigit = true

/-- The whole part of a number: zero, or digits that do not begin with zero. -/
def IsWhole (cs : List Char) : Prop := cs = ['0'] ∨ IsDigits cs ∧ cs.head? ≠ some '0'

/-- The fraction of a number, which may be left out. -/
def IsFraction (cs : List Char) : Prop := cs = [] ∨ ∃ ds, cs = '.' :: ds ∧ IsDigits ds

/-- The exponent of a number, which may be left out. -/
def IsExponent (cs : List Char) : Prop :=
  cs = [] ∨ ∃ mark sign ds, cs = mark :: (sign ++ ds) ∧ mark ∈ ['e', 'E'] ∧
    sign ∈ [[], ['+'], ['-']] ∧ IsDigits ds

/-- A number: a sign that may be left out, and its three parts. -/
def IsNumber (cs : List Char) : Prop :=
  ∃ sign whole fraction exponent, cs = sign ++ (whole ++ (fraction ++ exponent)) ∧
    sign ∈ [[], ['-']] ∧ IsWhole whole ∧ IsFraction fraction ∧ IsExponent exponent

/-! ## Tokens -/

/-- The character of a punctuation mark. -/
def Token.mark? : Token → Option Char
  | .openObject => some '\x7b'
  | .closeObject => some '\x7d'
  | .openArray => some '['
  | .closeArray => some ']'
  | .colon => some ':'
  | .comma => some ','
  | _ => none

/-- The spellings of a token. -/
inductive Token.Spelled : Token → List Char → Prop
  | mark {t : Token} {c : Char} (h : t.mark? = some c) : Spelled t [c]
  | null : Spelled .null ['n', 'u', 'l', 'l']
  | true : Spelled (.bool true) ['t', 'r', 'u', 'e']
  | false : Spelled (.bool false) ['f', 'a', 'l', 's', 'e']
  | number {cs : List Char} (h : IsNumber cs) : Spelled (.number cs) cs
  | text {ps : List Piece} {cs : List Char} {ws : List (List Char)}
      (spelled : List.Forall₂ Piece.Spelled ps ws) (denote : Piece.Denote ps cs) :
      Spelled (.string (some cs)) ('"' :: (ws.flatten ++ ['"']))
  | noText {ps : List Piece} {ws : List (List Char)}
      (spelled : List.Forall₂ Piece.Spelled ps ws) (denote : ∀ cs, ¬ Piece.Denote ps cs) :
      Spelled (.string none) ('"' :: (ws.flatten ++ ['"']))

/-- White space only. -/
def IsSpace (cs : List Char) : Prop := ∀ c ∈ cs, isBlank c = true

/-- The tokens are written one after the other, with white space around them or none. -/
inductive Token.Written : List Token → List Char → Prop
  | nil {space : List Char} (h : IsSpace space) : Written [] space
  | cons {t : Token} {ts : List Token} {space w cs : List Char} (h : IsSpace space)
      (spelled : t.Spelled w) (tail : Written ts cs) : Written (t :: ts) (space ++ (w ++ cs))

/-- No number is followed by anything but a mark, so that it ends where it should. -/
def Token.Delimited : List Token → Prop
  | [] => True
  | t :: ts => (∀ cs, t = .number cs → ∀ next ∈ ts.head?, next.mark?.isSome) ∧ Delimited ts

/-! ## The text of a string -/

theorem Piece.Denote.text? {ps : List Piece} {cs : List Char} (h : Piece.Denote ps cs) :
    Piece.text? ps = some cs := by
  induction h with
  | nil => rfl
  | char _ ih => simp [Piece.text?, ih]
  | @pair c ps cs hc _ ih =>
    have hlt : c.toNat < 0x110000 := by
      have hvalid : c.toNat < 0xD800 ∨ 0xDFFF < c.toNat ∧ c.toNat < 0x110000 := c.valid
      omega
    have hvalue : pairValue (0xD800 + (c.toNat - 0x10000) / 0x400)
        (0xDC00 + (c.toNat - 0x10000) % 0x400) = c.toNat := by
      unfold pairValue
      omega
    rw [Piece.text?, if_pos (by omega), hvalue, Char.ofNat_toNat, ih]
    rfl

/-- Pieces that have been written stand for the text that is read in them, if there is one. -/
theorem Piece.denote_of_text? {ps : List Piece} {ws : List (List Char)} {cs : List Char}
    (hspelled : List.Forall₂ Piece.Spelled ps ws) (h : Piece.text? ps = some cs) :
    Piece.Denote ps cs := by
  induction ps using Piece.text?.induct generalizing ws cs with
  | case1 =>
    cases h
    exact .nil
  | case2 c ps ih =>
    obtain ⟨rest, hrest, rfl⟩ : ∃ rest, Piece.text? ps = some rest ∧ c :: rest = cs := by
      simpa [Piece.text?] using h
    cases hspelled with
    | cons _ hspelled => exact .char (ih hspelled hrest)
  | case3 high low ps hhalves ih =>
    rw [Piece.text?, if_pos hhalves] at h
    obtain ⟨rest, hrest, rfl⟩ : ∃ rest, Piece.text? ps = some rest ∧
        Char.ofNat (pairValue high low) :: rest = cs := by
      simpa using h
    rcases hspelled with _ | ⟨_ | _ | _ | ⟨hfirst, _, _⟩, _ | ⟨_ | _ | _ | ⟨_, hlast, _⟩, hspelled⟩⟩
    have hpair : pairValue high low = 0x10000 + (high - 0xD800) * 0x400 + (low - 0xDC00) := rfl
    have hhigh : 0xD800 + (pairValue high low - 0x10000) / 0x400 = high := by omega
    have hlow : 0xDC00 + (pairValue high low - 0x10000) % 0x400 = low := by omega
    have hvalid : (pairValue high low).isValidChar := Or.inr (by omega)
    have hchar : (Char.ofNat (pairValue high low)).toNat = pairValue high low := by
      rw [Char.ofNat, dif_pos hvalid]
      rfl
    have hdenote := Piece.Denote.pair (c := Char.ofNat (pairValue high low)) (by omega)
      (ih hspelled hrest)
    rwa [hchar, hhigh, hlow] at hdenote
  | case4 high low ps hhalves =>
    rw [Piece.text?, if_neg hhalves] at h
    cases h
  | case5 high ps hlast =>
    rw [Piece.text?] at h
    · cases h
    · exact hlast
  | case6 => cases h

end Translit.Json
