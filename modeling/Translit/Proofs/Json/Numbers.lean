import Translit.Proofs.Json.Records

/-!
# Reading numbers back

* `Value.nat?`, `IsNat`: the natural number that a value holds;
* `toDigits_head?`, `isNumber_toDigits`: decimal digits are the spelling of a number;
* `writes_nat`, `Value.recovers_nat?`: natural numbers are written and read back.
-/

namespace Translit.Json

/-- The natural number of a value spelled by digits alone. -/
def Value.nat? : Value → Option Nat
  | .number spelling =>
    if spelling ≠ [] ∧ spelling.all Char.isDigit then some (Nat.ofDigitChars 10 spelling 0)
    else none
  | _ => none

/-- The value holds the number. -/
def IsNat (n : Nat) (v : Value) : Prop := v.nat? = some n

variable {n : Nat}

theorem isDigits_toDigits (n : Nat) : IsDigits (Nat.toDigits 10 n) := by
  refine ⟨Nat.toDigits_ne_nil, fun d hd => ?_⟩
  exact Nat.isDigit_of_mem_toDigits (by decide) (by decide) hd

/-- No number other than zero begins with a zero. -/
theorem toDigits_head? (h : 0 < n) : (Nat.toDigits 10 n).head? ≠ some '0' := by
  induction n using Nat.strongRecOn with
  | ind n ih =>
    rw [Nat.toDigits_eq_if (by decide)]
    split_ifs with hsmall
    · intro hhead
      have hzero : n.digitChar = '0' := Option.some.inj hhead
      rw [Nat.digitChar_eq_zero] at hzero
      omega
    · rw [List.head?_append_of_ne_nil _ Nat.toDigits_ne_nil]
      exact ih (n / 10) (by omega) (by omega)

theorem isWhole_toDigits (n : Nat) : IsWhole (Nat.toDigits 10 n) := by
  obtain rfl | hpos := Nat.eq_zero_or_pos n
  · exact .inl rfl
  · exact .inr ⟨isDigits_toDigits n, toDigits_head? hpos⟩

theorem isNumber_toDigits (n : Nat) : IsNumber (Nat.toDigits 10 n) := by
  refine ⟨[], Nat.toDigits 10 n, [], [], ?_, by simp, isWhole_toDigits n, .inl rfl, .inl rfl⟩
  rw [List.append_nil, List.append_nil, List.nil_append]

theorem nat?_nat (n : Nat) : (Value.nat n).nat? = some n := by
  obtain ⟨hne, hdigits⟩ := isDigits_toDigits n
  rw [Value.nat, Value.nat?, if_pos ⟨hne, List.all_eq_true.2 hdigits⟩,
    Nat.ofDigitChars_ten_toDigits]

theorem writes_nat : Writes Value.nat IsNat := by
  intro n
  refine ⟨nat?_nat n, ?_⟩
  rintro cs (_ | ⟨_, ⟨⟩⟩)
  exact isNumber_toDigits n

theorem Value.recovers_nat? : Recovers Value.nat? IsNat := by
  intro n v h
  exact h

end Translit.Json
