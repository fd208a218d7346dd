import Mathlib.Data.Finset.Card
import Translit.Proofs.Grammar.Meaning
import Translit.Proofs.Unicode.Lowercase

/-!
# The classes of a grammar

The letters of a grammar are listed in texts, in either case and as often as one likes. Listed
letters and letters that are asked for are folded alike, so a grammar sorts all characters into
vowels, consonants and punctuation by their folds. There is none where a vowel and a consonant
have one fold.

* `LetterClass.contains_ofText`, `LetterClass.size_ofText`: the class that a text lists;
* `Grammar.SharedFold`, `Grammar.exists_build_error_iff`: when there is no grammar;
* `Grammar.Sorts`, `Grammar.sorts_of_build`: what a grammar makes of each character;
* `Grammar.build_verdict`: both together.
-/

namespace Translit

open Unicode (foldCase foldCase_eq_of_lowercase lowercase)

/-! ## The class that a text lists -/

theorem nodup_eraseDups (l : List Char) : l.eraseDups.Nodup := by
  induction hlen : l.length using Nat.strong_induction_on generalizing l with
  | _ n ih =>
    cases l with
    | nil => simp
    | cons a l =>
      have hshort : (l.filter fun b => !b == a).length < n := by
        have hle := List.length_filter_le (fun b => !b == a) l
        rw [List.length_cons] at hlen
        omega
      rw [List.eraseDups_cons, List.nodup_cons]
      exact ⟨by simp, ih _ hshort _ rfl⟩

namespace LetterClass

variable {text : List Char} {c d : Char}

/-- A character is in the class exactly if a letter of the text has its fold. -/
theorem contains_ofText :
    (ofText text).contains c = true ↔ ∃ a ∈ text, foldCase a = foldCase c := by
  rw [contains, List.contains_iff_mem, Grammar.mem_folds_ofText]

/-- Only the fold of a character matters. -/
theorem contains_eq_of_foldCase (l : LetterClass) (h : foldCase c = foldCase d) :
    l.contains c = l.contains d := by
  rw [contains, contains, h]

/-- The class is as large as the set of folds of the text. -/
theorem size_ofText (text : List Char) :
    (ofText text).size = (text.map foldCase).toFinset.card := by
  have hnodup : (ofText text).folds.Nodup := nodup_eraseDups _
  have hset : (ofText text).folds.toFinset = (text.map foldCase).toFinset := by
    ext l
    simp [ofText, List.mem_eraseDups]
  rw [size, ← hset, List.toFinset_card_of_nodup hnodup]

end LetterClass

namespace Grammar

variable {vowels consonants caseSensitive : List Char} {ps : List Pattern} {g : Grammar}
  {c d l : Char}

/-! ## When there is no grammar -/

/-- The letter is the fold of a vowel and of a consonant. -/
structure SharedFold (vowels consonants : List Char) (l : Char) : Prop where
  vowel : ∃ v ∈ vowels, foldCase v = l
  consonant : ∃ k ∈ consonants, foldCase k = l

theorem not_disjointFolds_iff : ¬ DisjointFolds vowels consonants ↔
    ∃ v ∈ vowels, ∃ k ∈ consonants, foldCase v = foldCase k := by
  simp [DisjointFolds]

theorem exists_build_error_iff : (∃ err, build vowels consonants caseSensitive ps = .error err) ↔
    ¬ DisjointFolds vowels consonants := by
  constructor
  · rintro ⟨err, herr⟩ hdisjoint
    obtain ⟨l, -, ⟨v, hv, hvl⟩, k, hk, hkl⟩ := exists_common_of_build herr
    exact hdisjoint v hv k hk (hvl.trans hkl.symm)
  · intro hshared
    cases hbuild : build vowels consonants caseSensitive ps with
    | error err => exact ⟨err, rfl⟩
    | ok g => exact absurd (build_eq_ok.1 hbuild).1 hshared

theorem build_error_of_unique (hl : SharedFold vowels consonants l)
    (honly : ∀ l', SharedFold vowels consonants l' → l' = l) :
    build vowels consonants caseSensitive ps = .error (.overlappingClasses l) := by
  obtain ⟨⟨v, hv, hvl⟩, k, hk, hkl⟩ := hl
  have hshared : ¬ DisjointFolds vowels consonants :=
    not_disjointFolds_iff.2 ⟨v, hv, k, hk, hvl.trans hkl.symm⟩
  obtain ⟨err, herr⟩ := exists_build_error_iff.2 hshared
  obtain ⟨l', rfl, hvowel, hconsonant⟩ := exists_common_of_build herr
  rw [herr, honly l' ⟨hvowel, hconsonant⟩]

/-! ## What a grammar makes of each character -/

/-- The characters are in the same classes. -/
structure SortsAlike (g : Grammar) (c d : Char) : Prop where
  vowel : g.isVowel c = g.isVowel d
  consonant : g.isConsonant c = g.isConsonant d
  punctuation : g.isPunctuation c = g.isPunctuation d
  caseSensitive : g.isCaseSensitive c = g.isCaseSensitive d

/-- The grammar sorts all characters by the folds of the letters that the texts list. -/
structure Sorts (g : Grammar) (vowels consonants caseSensitive : List Char) : Prop where
  /-- A character is a vowel, a consonant or punctuation, and only one of them. -/
  one : ∀ c, [g.isVowel c, g.isConsonant c, g.isPunctuation c].count true = 1
  vowel : ∀ c, g.isVowel c = true ↔ ∃ v ∈ vowels, foldCase v = foldCase c
  consonant : ∀ c, g.isConsonant c = true ↔ ∃ k ∈ consonants, foldCase k = foldCase c
  punctuation : ∀ c, g.isPunctuation c = true ↔
    ∀ a, a ∈ vowels ∨ a ∈ consonants → foldCase a ≠ foldCase c
  caseSensitive : ∀ c, g.isCaseSensitive c = true ↔
    ∃ s ∈ caseSensitive, foldCase s = foldCase c
  /-- Only the fold matters. -/
  sameFold : ∀ c d, foldCase c = foldCase d → g.SortsAlike c d
  /-- A capital is sorted like its small letter, if that is one character. -/
  small : ∀ c l, lowercase c = [l] → g.SortsAlike c l
  vowelCount : g.vowels.size = (vowels.map foldCase).toFinset.card
  consonantCount : g.consonants.size = (consonants.map foldCase).toFinset.card

/-- The classes have no letter in common. -/
theorem isConsonant_of_isVowel (h : g.isVowel c = true) : g.isConsonant c = false := by
  unfold isVowel LetterClass.contains at h
  unfold isConsonant LetterClass.contains
  have hnot := g.disjoint _ (List.contains_iff_mem.1 h)
  simpa using hnot

/-- **One class.** Every grammar makes of a character a vowel, a consonant or punctuation, and only
one of them. -/
theorem count_classes (g : Grammar) (c : Char) :
    [g.isVowel c, g.isConsonant c, g.isPunctuation c].count true = 1 := by
  unfold isPunctuation
  cases hvowel : g.isVowel c with
  | true => simp [isConsonant_of_isVowel hvowel]
  | false => cases g.isConsonant c <;> simp

theorem isPunctuation_iff : g.isPunctuation c = true ↔
    ¬ g.isVowel c = true ∧ ¬ g.isConsonant c = true := by
  simp [isPunctuation]

theorem SortsAlike.of_foldCase (h : foldCase c = foldCase d) : g.SortsAlike c d := by
  have hvowel : g.isVowel c = g.isVowel d := g.vowels.contains_eq_of_foldCase h
  have hconsonant : g.isConsonant c = g.isConsonant d := g.consonants.contains_eq_of_foldCase h
  refine ⟨hvowel, hconsonant, ?_, g.caseSensitive.contains_eq_of_foldCase h⟩
  rw [isPunctuation, isPunctuation, hvowel, hconsonant]

theorem sorts_of_build (h : build vowels consonants caseSensitive ps = .ok g) :
    g.Sorts vowels consonants caseSensitive := by
  obtain ⟨-, hvowels, hconsonants, hcaseSensitive, -⟩ := build_eq_ok.1 h
  have hvowel : ∀ c, g.isVowel c = true ↔ ∃ v ∈ vowels, foldCase v = foldCase c := by
    intro c
    rw [isVowel, hvowels, LetterClass.contains_ofText]
  have hconsonant : ∀ c, g.isConsonant c = true ↔ ∃ k ∈ consonants, foldCase k = foldCase c := by
    intro c
    rw [isConsonant, hconsonants, LetterClass.contains_ofText]
  refine ⟨g.count_classes, hvowel, hconsonant, ?_, ?_, fun _ _ h => .of_foldCase h, ?_, ?_, ?_⟩
  · intro c
    rw [isPunctuation_iff, hvowel, hconsonant]
    constructor
    · rintro ⟨hv, hk⟩ a (ha | ha) hac
      · exact hv ⟨a, ha, hac⟩
      · exact hk ⟨a, ha, hac⟩
    · intro hno
      refine ⟨?_, ?_⟩
      · rintro ⟨v, hv, hvc⟩
        exact hno v (.inl hv) hvc
      · rintro ⟨k, hk, hkc⟩
        exact hno k (.inr hk) hkc
  · intro c
    rw [isCaseSensitive, hcaseSensitive, LetterClass.contains_ofText]
  · intro c l hl
    exact .of_foldCase (foldCase_eq_of_lowercase hl)
  · rw [hvowels, LetterClass.size_ofText]
  · rw [hconsonants, LetterClass.size_ofText]

/-- **The verdict on letter classes.** They are refused exactly if a vowel and a consonant have one
fold, for such a fold, and so for the only one if there is only one. A grammar of them sorts all
characters by their folds. -/
theorem build_verdict (vowels consonants caseSensitive : List Char) (ps : List Pattern) :
    ((∃ err, build vowels consonants caseSensitive ps = .error err) ↔
      ∃ v ∈ vowels, ∃ k ∈ consonants, foldCase v = foldCase k) ∧
    (∀ err, build vowels consonants caseSensitive ps = .error err →
      ∃ l, err = .overlappingClasses l ∧ SharedFold vowels consonants l) ∧
    (∀ l, SharedFold vowels consonants l → (∀ l', SharedFold vowels consonants l' → l' = l) →
      build vowels consonants caseSensitive ps = .error (.overlappingClasses l)) ∧
    ∀ g, build vowels consonants caseSensitive ps = .ok g →
      g.Sorts vowels consonants caseSensitive := by
  refine ⟨exists_build_error_iff.trans not_disjointFolds_iff, ?_, ?_, fun _ => sorts_of_build⟩
  · intro err herr
    obtain ⟨l, hl, hvowel, hconsonant⟩ := exists_common_of_build herr
    exact ⟨l, hl, hvowel, hconsonant⟩
  · intro l
    exact build_error_of_unique

/-- The Kelvin sign is a consonant where the letter k is one, and the capital sharp s makes the
small one a consonant; but the dotted capital I, which folding leaves as it is, makes no vowel of
the letter i. The Kelvin sign cannot be a vowel where k is a consonant. -/
theorem kelvin_build_verdict :
    (∃ g, build "aA\u0130".toList "kK\u1e9e".toList "\u212a".toList [] = .ok g ∧
      g.vowels.size = 2 ∧ g.consonants.size = 2 ∧ g.isConsonant '\u212a' = true ∧
      g.isConsonant '\u00df' = true ∧ g.isVowel '\u0130' = true ∧ g.isPunctuation 'i' = true ∧
      g.isCaseSensitive 'K' = true ∧ g.SortsAlike '\u212a' 'k' ∧ g.SortsAlike '\u212a' 'K') ∧
    build "a\u212a".toList "kK".toList [] [] = .error (.overlappingClasses 'k') := by
  obtain ⟨hrefused, -, -, hsorts⟩ :=
    build_verdict "aA\u0130".toList "kK\u1e9e".toList "\u212a".toList []
  obtain ⟨-, -, hnamed, -⟩ := build_verdict "a\u212a".toList "kK".toList [] []
  constructor
  · cases hbuild : build "aA\u0130".toList "kK\u1e9e".toList "\u212a".toList [] with
    | error err =>
      exact absurd (by decide +kernel) (not_disjointFolds_iff.2 (hrefused.1 ⟨err, hbuild⟩))
    | ok g =>
      have hg := hsorts g hbuild
      have hletters : ∀ a ∈ "aA\u0130".toList ++ "kK\u1e9e".toList, foldCase a ≠ foldCase 'i' :=
        List.all_iff_forall_prop.1 (by decide +kernel)
      refine ⟨g, rfl, ?_, ?_, ?_, ?_, ?_, ?_, ?_, hg.small _ _ (by decide +kernel),
        hg.sameFold _ _ (by decide +kernel)⟩
      · rw [hg.vowelCount]
        decide +kernel
      · rw [hg.consonantCount]
        decide +kernel
      · exact (hg.consonant _).2 ⟨'k', by decide, by decide +kernel⟩
      · exact (hg.consonant _).2 ⟨'\u1e9e', by decide, by decide +kernel⟩
      · exact (hg.vowel _).2 ⟨'\u0130', by decide, rfl⟩
      · exact (hg.punctuation _).2 fun a ha => hletters a (List.mem_append.2 ha)
      · exact (hg.caseSensitive _).2 ⟨'\u212a', by decide, by decide +kernel⟩
  · have hk : ∀ k ∈ "kK".toList, foldCase k = 'k' :=
      List.all_iff_forall_prop.1 (by decide +kernel)
    have hshared : SharedFold "a\u212a".toList "kK".toList 'k' :=
      ⟨⟨'\u212a', by decide, by decide +kernel⟩, 'k', by decide, hk 'k' (by decide)⟩
    refine hnamed 'k' hshared ?_
    rintro l ⟨-, k, hmem, rfl⟩
    exact hk k hmem

end Grammar

end Translit
