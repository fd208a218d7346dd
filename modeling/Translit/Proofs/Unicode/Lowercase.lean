import Mathlib.Data.Bool.AllAny
import Mathlib.Tactic.Common
import Translit.Unicode.Lowercase

/-!
# Small letters

What the lowercase mapping gives is in small letters: none of it has a lowercase form other than
itself. The table of capitals is checked run against run.

* `IsSmall`: a character that is its own lowercase form;
* `LowerRun.Regular`, `LowerRun.misses`: the small letters of a run are characters, and no capitals
  of another run;
* `isSmall_of_mem_lowercase`: the characters of a lowercase form are small;
* `foldCase_eq_of_lowercase`: a capital and its small letter have one fold.
-/

namespace Translit.Unicode

/-- The character is its own lowercase form. -/
def IsSmall (c : Char) : Prop := lowercase c = [c]

instance (c : Char) : Decidable (IsSmall c) := inferInstanceAs (Decidable (_ = _))

/-- The scalar value of the small letter of a capital. -/
def LowerRun.target (r : LowerRun) (n : Nat) : Nat := ((n : Int) + r.shift).toNat

/-- The small letters of the run are characters, and the dotted capital I is not among them. -/
structure LowerRun.Regular (r : LowerRun) : Prop where
  low : 0 ≤ (r.first : Int) + r.shift
  valid : r.target r.last < 0xD800 ∨ 0xDFFF < r.target r.first ∧ r.target r.last < 0x110000
  undotted : r.target r.last < dottedCapitalI.toNat ∨ dottedCapitalI.toNat < r.target r.first

instance (r : LowerRun) : Decidable r.Regular :=
  decidable_of_iff (_ ∧ _ ∧ _) ⟨fun ⟨h₁, h₂, h₃⟩ => ⟨h₁, h₂, h₃⟩, fun ⟨h₁, h₂, h₃⟩ => ⟨h₁, h₂, h₃⟩⟩

/-- The small letters of the run `r` are none of the capitals of the run `s`: they lie in front of
them, behind them, or in the places between them. -/
def LowerRun.misses (r s : LowerRun) : Bool :=
  (r.target r.last).blt s.first || s.last.blt (r.target r.first) ||
    (r.step.beq 2 || r.first.beq r.last) && s.step.beq 2 &&
      ((r.target r.first + s.first) % 2).beq 1

theorem regular_of_mem : ∀ r ∈ lowerRuns, r.Regular := by
  decide +kernel

theorem misses_table : (lowerRuns.all fun r => lowerRuns.all r.misses) = true := by
  decide +kernel

namespace LowerRun

variable {r s : LowerRun} {n : Nat}

theorem contains_iff :
    r.contains n = true ↔ r.first ≤ n ∧ n ≤ r.last ∧ (n - r.first) % r.step = 0 := by
  simp [contains, and_assoc]

theorem misses_iff : r.misses s = true ↔
    r.target r.last < s.first ∨ s.last < r.target r.first ∨
      (r.step = 2 ∨ r.first = r.last) ∧ s.step = 2 ∧ (r.target r.first + s.first) % 2 = 1 := by
  simp [misses, or_assoc, and_assoc]

theorem not_contains_of_misses (h : r.misses s = true) (hr : r.Regular)
    (hn : r.contains n = true) : s.contains (r.target n) = false := by
  have hlow := hr.low
  rw [contains_iff] at hn
  rw [misses_iff] at h
  rw [← Bool.not_eq_true, contains_iff]
  rintro ⟨hfirst, hlast, hstep⟩
  unfold target at *
  rcases h with h | h | ⟨h, hs, hodd⟩
  · omega
  · omega
  · -- the capitals of `s` lie at every second place, the small letters of `r` at the others
    rw [hs] at hstep
    rcases h with h | h
    · rw [h] at hn
      omega
    · omega

theorem Regular.toNat_target (hr : r.Regular) (hn : r.contains n = true) :
    (Char.ofNat (r.target n)).toNat = r.target n := by
  have hlow := hr.low
  have hvalid := hr.valid
  rw [contains_iff] at hn
  have hchar : (r.target n).isValidChar := by
    unfold target Nat.isValidChar at *
    omega
  rw [Char.ofNat, dif_pos hchar]
  rfl

end LowerRun

variable {c l : Char}

theorem smallLetter?_eq_some (h : smallLetter? c = some l) :
    ∃ r ∈ lowerRuns, r.contains c.toNat = true ∧ l = Char.ofNat (r.target c.toNat) := by
  obtain ⟨r, hr, rfl⟩ := Option.map_eq_some_iff.1 h
  have hc := List.find?_some hr
  exact ⟨r, List.mem_of_find?_eq_some hr, hc, rfl⟩

theorem isSmall_of_not_contains (hdot : c ≠ dottedCapitalI)
    (h : ∀ r ∈ lowerRuns, r.contains c.toNat = false) : IsSmall c := by
  have hnone : smallLetter? c = none := by
    rw [smallLetter?, Option.map_eq_none_iff, List.find?_eq_none]
    exact fun r hr => Bool.eq_false_iff.1 (h r hr)
  rw [IsSmall, lowercase, if_neg hdot, hnone, Option.getD_none]

/-- The small letter of a capital is no capital. -/
theorem isSmall_of_smallLetter? (h : smallLetter? c = some l) : IsSmall l := by
  obtain ⟨r, hr, hc, rfl⟩ := smallLetter?_eq_some h
  have hreg := regular_of_mem r hr
  have htarget := hreg.toNat_target hc
  refine isSmall_of_not_contains ?_ fun s hs => ?_
  · intro he
    rw [he] at htarget
    have hlow := hreg.low
    have hdotted := hreg.undotted
    rw [LowerRun.contains_iff] at hc
    unfold LowerRun.target at *
    omega
  · have hmiss := List.all_eq_true.1 (List.all_eq_true.1 misses_table r hr) s hs
    rw [htarget]
    exact LowerRun.not_contains_of_misses hmiss hreg hc

/-- **What the lowercase mapping gives is small.** -/
theorem isSmall_of_mem_lowercase (h : l ∈ lowercase c) : IsSmall l := by
  unfold lowercase at h
  split at h
  · exact List.all_iff_forall_prop.1 (by decide +kernel) l h
  · rename_i hdot
    rw [List.mem_singleton] at h
    cases hc : smallLetter? c with
    | some l' =>
      rw [hc, Option.getD_some] at h
      exact h ▸ isSmall_of_smallLetter? hc
    | none =>
      rw [hc, Option.getD_none] at h
      rw [h, IsSmall, lowercase, if_neg hdot, hc, Option.getD_none]

/-! ## Folding -/

theorem foldCase_of_lowercase (h : lowercase c = [l]) : foldCase c = l := by
  rw [foldCase, h]

/-- **A capital and its small letter have one fold**, if the small letter is one character. -/
theorem foldCase_eq_of_lowercase (h : lowercase c = [l]) : foldCase c = foldCase l := by
  have hsmall : IsSmall l := isSmall_of_mem_lowercase (h ▸ List.mem_singleton_self l)
  rw [foldCase_of_lowercase h, foldCase_of_lowercase hsmall]

end Translit.Unicode
