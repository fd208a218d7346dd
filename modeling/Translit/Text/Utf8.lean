/-!
# UTF-8

* `encode`: the bytes of a text;
* `decodeFirst`: the character at the front of a list of bytes, with the bytes it takes;
* `decode`: a list of bytes as characters, each byte that belongs to none standing for itself;
* `text?`: the text of well-formed bytes.
-/

namespace Translit.Text.Utf8

/-- A file or a stream: its bytes. -/
abbrev Bytes := List UInt8

/-- The bytes of a text. -/
def encode (cs : List Char) : Bytes := cs.flatMap String.utf8EncodeChar

/-- The low six bits of a continuation byte, `10xxxxxx`. -/
def continuation? (b : UInt8) : Option Nat :=
  if 0x80 ≤ b ∧ b < 0xC0 then some (b.toNat - 0x80) else none

/-- The character of a scalar value that is at least `least`, as the shortest encoding requires. -/
def scalar? (least n : Nat) : Option Char :=
  if least ≤ n ∧ n.isValidChar then some (Char.ofNat n) else none

/-- The character that the bytes begin with, and how many bytes follow its first. -/
def decodeFirst (b : UInt8) (rest : Bytes) : Option (Char × Nat) :=
  if b < 0x80 then some (Char.ofNat b.toNat, 0)
  else if 0xC0 ≤ b ∧ b < 0xE0 then
    match rest with
    | b₁ :: _ => do
      let n₁ ← continuation? b₁
      let c ← scalar? 0x80 ((b.toNat - 0xC0) * 0x40 + n₁)
      some (c, 1)
    | _ => none
  else if 0xE0 ≤ b ∧ b < 0xF0 then
    match rest with
    | b₁ :: b₂ :: _ => do
      let n₁ ← continuation? b₁
      let n₂ ← continuation? b₂
      let c ← scalar? 0x800 (((b.toNat - 0xE0) * 0x40 + n₁) * 0x40 + n₂)
      some (c, 2)
    | _ => none
  else if 0xF0 ≤ b ∧ b < 0xF8 then
    match rest with
    | b₁ :: b₂ :: b₃ :: _ => do
      let n₁ ← continuation? b₁
      let n₂ ← continuation? b₂
      let n₃ ← continuation? b₃
      let c ← scalar? 0x10000 ((((b.toNat - 0xF0) * 0x40 + n₁) * 0x40 + n₂) * 0x40 + n₃)
      some (c, 3)
    | _ => none
  else none

/-- The characters of a list of bytes, passing over the first `skip` bytes. A byte that begins no
character becomes `none`, and reading goes on with the byte after it. -/
def decodeFrom : Nat → Bytes → List (Option Char)
  | _, [] => []
  | skip + 1, _ :: bs => decodeFrom skip bs
  | 0, b :: bs =>
    match decodeFirst b bs with
    | some (c, more) => some c :: decodeFrom more bs
    | none => none :: decodeFrom 0 bs

/-- The characters of a list of bytes, with `none` for each byte that belongs to no character. -/
def decode (bs : Bytes) : List (Option Char) := decodeFrom 0 bs

/-- The text that the bytes encode, if all of them belong to characters. -/
def text? (bs : Bytes) : Option (List Char) := (decode bs).mapM id

end Translit.Text.Utf8
