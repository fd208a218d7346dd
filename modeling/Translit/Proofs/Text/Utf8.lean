import Mathlib.Data.List.Basic
import Mathlib.Tactic.Common
import Translit.Text.Utf8

/-!
# Reading UTF-8 back

The bytes of a text are read as the characters of the text, whatever bytes follow.

* `decodeFirst_encode`: the first character, by the number of its bytes;
* `decode_encode`, `text?_encode`: a whole text;
* `mem_of_mem_encode`, `getLast?_of_getLast?_encode`: where a byte that could be a character is one.
-/

namespace Translit.Text.Utf8

theorem toNat_byte {n : Nat} (h : n < 256) : (UInt8.ofNat n).toNat = n := by
  simp [UInt8.toNat_ofNat', Nat.mod_eq_of_lt h]

theorem continuation?_byte {n : Nat} (h : n < 0x40) :
    continuation? (UInt8.ofNat (n + 0x80)) = some n := by
  have hbyte := toNat_byte (n := n + 0x80) (by omega)
  unfold continuation?
  rw [if_pos]
  · rw [hbyte, Nat.add_sub_cancel]
  · rw [UInt8.le_iff_toNat_le, UInt8.lt_iff_toNat_lt, hbyte]
    exact ⟨Nat.le_add_left _ _, by simpa using (by omega : n + 128 < 192)⟩

theorem scalar?_toNat {least : Nat} {c : Char} (h : least ≤ c.toNat) :
    scalar? least c.toNat = some c := by
  rw [scalar?, if_pos ⟨h, c.valid⟩, Char.ofNat_toNat]

variable {n₀ n₁ n₂ n₃ : Nat} {bs : Bytes}

theorem decodeFirst_one (h₀ : n₀ < 0x80) :
    decodeFirst (UInt8.ofNat n₀) bs = some (Char.ofNat n₀, 0) := by
  have hbyte := toNat_byte (n := n₀) (by omega)
  unfold decodeFirst
  rw [if_pos, hbyte]
  simpa [UInt8.lt_iff_toNat_lt, hbyte] using h₀

theorem decodeFirst_two (h₀ : n₀ < 0x20) (h₁ : n₁ < 0x40) :
    decodeFirst (UInt8.ofNat (n₀ + 0xC0)) (UInt8.ofNat (n₁ + 0x80) :: bs) =
      (scalar? 0x80 (n₀ * 0x40 + n₁)).map (·, 1) := by
  have hbyte := toNat_byte (n := n₀ + 0xC0) (by omega)
  simp only [decodeFirst, UInt8.lt_iff_toNat_lt, UInt8.le_iff_toNat_le, hbyte,
    continuation?_byte h₁]
  rw [if_neg (by simp), if_pos (by simp; omega), Nat.add_sub_cancel]
  cases hscalar : scalar? 0x80 (n₀ * 0x40 + n₁) <;> simp [hscalar]

theorem decodeFirst_three (h₀ : n₀ < 0x10) (h₁ : n₁ < 0x40) (h₂ : n₂ < 0x40) :
    decodeFirst (UInt8.ofNat (n₀ + 0xE0))
        (UInt8.ofNat (n₁ + 0x80) :: UInt8.ofNat (n₂ + 0x80) :: bs) =
      (scalar? 0x800 ((n₀ * 0x40 + n₁) * 0x40 + n₂)).map (·, 2) := by
  have hbyte := toNat_byte (n := n₀ + 0xE0) (by omega)
  simp only [decodeFirst, UInt8.lt_iff_toNat_lt, UInt8.le_iff_toNat_le, hbyte,
    continuation?_byte h₁, continuation?_byte h₂]
  rw [if_neg (by simp), if_neg (by simp), if_pos (by simp; omega), Nat.add_sub_cancel]
  cases hscalar : scalar? 0x800 ((n₀ * 0x40 + n₁) * 0x40 + n₂) <;> simp [hscalar]

theorem decodeFirst_four (h₀ : n₀ < 0x08) (h₁ : n₁ < 0x40) (h₂ : n₂ < 0x40) (h₃ : n₃ < 0x40) :
    decodeFirst (UInt8.ofNat (n₀ + 0xF0))
        (UInt8.ofNat (n₁ + 0x80) :: UInt8.ofNat (n₂ + 0x80) :: UInt8.ofNat (n₃ + 0x80) :: bs) =
      (scalar? 0x10000 (((n₀ * 0x40 + n₁) * 0x40 + n₂) * 0x40 + n₃)).map (·, 3) := by
  have hbyte := toNat_byte (n := n₀ + 0xF0) (by omega)
  simp only [decodeFirst, UInt8.lt_iff_toNat_lt, UInt8.le_iff_toNat_le, hbyte,
    continuation?_byte h₁, continuation?_byte h₂, continuation?_byte h₃]
  rw [if_neg (by simp), if_neg (by simp), if_neg (by simp), if_pos (by simp; omega),
    Nat.add_sub_cancel]
  cases hscalar : scalar? 0x10000 (((n₀ * 0x40 + n₁) * 0x40 + n₂) * 0x40 + n₃) <;> simp [hscalar]

/-- **The first character.** Its bytes are read as it, whatever follows them. -/
theorem decodeFirst_encode (c : Char) (bs : Bytes) :
    ∃ b more, String.utf8EncodeChar c = b :: more ∧
      decodeFirst b (more ++ bs) = some (c, more.length) := by
  have hvalid : c.toNat < 0x110000 := by
    rcases c.valid with h | h
    · exact Nat.lt_trans h (by decide)
    · exact h.2
  have hscalar : ∀ {least n : Nat}, n = c.toNat → least ≤ n → scalar? least n = some c :=
    fun hn hle => hn ▸ scalar?_toNat (hn ▸ hle)
  fun_cases String.utf8EncodeChar with
  | case1 v h =>
    refine ⟨_, [], rfl, ?_⟩
    rw [List.nil_append, decodeFirst_one (by omega)]
    exact congrArg (fun c => some (c, 0)) (Char.ofNat_toNat c)
  | case2 v h h' =>
    have hv : v = c.toNat := rfl
    refine ⟨_, [_], rfl, ?_⟩
    rw [List.singleton_append, decodeFirst_two (by omega) (by omega),
      hscalar (by omega) (by omega)]
    rfl
  | case3 v h h' h'' =>
    have hv : v = c.toNat := rfl
    refine ⟨_, [_, _], rfl, ?_⟩
    rw [List.cons_append, List.singleton_append, decodeFirst_three (by omega) (by omega) (by omega),
      hscalar (by omega) (by omega)]
    rfl
  | case4 v h h' h'' =>
    have hv : v = c.toNat := rfl
    refine ⟨_, [_, _, _], rfl, ?_⟩
    rw [List.cons_append, List.cons_append, List.singleton_append,
      decodeFirst_four (by omega) (by omega) (by omega) (by omega), hscalar (by omega) (by omega)]
    rfl

theorem decodeFrom_length (more bs : Bytes) :
    decodeFrom more.length (more ++ bs) = decodeFrom 0 bs := by
  induction more with
  | nil => rfl
  | cons b more ih => exact ih

/-- **The bytes of a text are read as the text.** -/
theorem decode_encode (cs : List Char) : decode (encode cs) = cs.map some := by
  induction cs with
  | nil => rfl
  | cons c cs ih =>
    obtain ⟨b, more, hbytes, hfirst⟩ := decodeFirst_encode c (encode cs)
    have hencode : encode (c :: cs) = b :: (more ++ encode cs) := by
      rw [encode, List.flatMap_cons, hbytes]
      rfl
    rw [hencode, decode, decodeFrom, hfirst]
    simp only
    rw [decodeFrom_length, List.map_cons, ← ih]
    rfl

theorem text?_encode (cs : List Char) : text? (encode cs) = some cs := by
  rw [text?, decode_encode]
  induction cs with
  | nil => rfl
  | cons c cs ih =>
    simp only [List.map_cons, List.mapM_cons, ih]
    rfl

/-! ## Bytes of a text -/

variable {c : Char} {cs : List Char} {b : UInt8}

theorem encode_append (cs ds : List Char) : encode (cs ++ ds) = encode cs ++ encode ds :=
  List.flatMap_append

theorem utf8EncodeChar_of_lt (h : c.toNat < 0x80) :
    String.utf8EncodeChar c = [UInt8.ofNat c.toNat] := by
  rw [String.utf8EncodeChar]
  exact if_pos (Nat.le_of_lt_succ h)

/-- A character of more than one byte has no byte that could be a character. -/
theorem le_of_mem_utf8EncodeChar (h : 0x80 ≤ c.toNat) (hb : b ∈ String.utf8EncodeChar c) :
    0x80 ≤ b.toNat := by
  revert hb
  fun_cases String.utf8EncodeChar with
  | case1 v hv =>
    have : v = c.toNat := rfl
    omega
  | case2 v hv hv' =>
    simp only [List.mem_cons, List.not_mem_nil, or_false]
    rintro (rfl | rfl) <;> rw [toNat_byte (by omega)] <;> omega
  | case3 v hv hv' hv'' =>
    simp only [List.mem_cons, List.not_mem_nil, or_false]
    rintro (rfl | rfl | rfl) <;> rw [toNat_byte (by omega)] <;> omega
  | case4 v hv hv' hv'' =>
    simp only [List.mem_cons, List.not_mem_nil, or_false]
    rintro (rfl | rfl | rfl | rfl) <;> rw [toNat_byte (by omega)] <;> omega

/-- **A byte that could be a character is one**: no part of a longer character looks like it. -/
theorem eq_of_mem_utf8EncodeChar {d : Char} (hc : c.toNat < 0x80)
    (hmem : UInt8.ofNat c.toNat ∈ String.utf8EncodeChar d) : d = c := by
  have hbyte := toNat_byte (n := c.toNat) (by omega)
  have hd : d.toNat < 0x80 := by
    by_contra hle
    have := le_of_mem_utf8EncodeChar (Nat.le_of_not_lt hle) hmem
    omega
  rw [utf8EncodeChar_of_lt hd, List.mem_singleton] at hmem
  have hsame : c.toNat = d.toNat := by
    rw [← hbyte, hmem, toNat_byte (by omega)]
  rw [← Char.ofNat_toNat c, hsame, Char.ofNat_toNat]

theorem mem_of_mem_encode (hc : c.toNat < 0x80) (hmem : UInt8.ofNat c.toNat ∈ encode cs) :
    c ∈ cs := by
  obtain ⟨d, hd, hmem⟩ := List.mem_flatMap.1 hmem
  exact eq_of_mem_utf8EncodeChar hc hmem ▸ hd

theorem getLast?_of_getLast?_encode (hc : c.toNat < 0x80)
    (hlast : (encode cs).getLast? = some (UInt8.ofNat c.toNat)) : cs.getLast? = some c := by
  rcases cs.eq_nil_or_concat with rfl | ⟨before, d, rfl⟩
  · cases hlast
  · obtain ⟨b, more, hbytes, -⟩ := decodeFirst_encode d []
    have hne : String.utf8EncodeChar d ≠ [] := by
      rw [hbytes]
      exact List.cons_ne_nil _ _
    have hencode : encode [d] = String.utf8EncodeChar d := List.append_nil _
    rw [List.concat_eq_append, encode_append, hencode,
      List.getLast?_append_of_ne_nil _ hne] at hlast
    have hd := eq_of_mem_utf8EncodeChar hc (List.mem_of_getLast? hlast)
    rw [List.concat_eq_append, List.getLast?_concat, hd]

end Translit.Text.Utf8
