import Translit.Unicode.Lowercase

/-!
# Letter classes

A letter class is a set of letters that does not tell capitals from small letters.

* `LetterClass.ofText`: the class of the letters of a text;
* `LetterClass.contains`: membership, decided on the folded letter;
* `LetterClass.size`: how many letters it has after folding.
-/

namespace Translit

open Unicode (foldCase)

/-- A class of letters, by their folded forms. -/
structure LetterClass where
  folds : List Char
  deriving DecidableEq, Repr

namespace LetterClass

/-- The class of the letters of a text, each counted once. -/
def ofText (cs : List Char) : LetterClass := ⟨(cs.map foldCase).eraseDups⟩

/-- The folded letter is one of the class. -/
def contains (l : LetterClass) (c : Char) : Bool := l.folds.contains (foldCase c)

/-- The number of folded letters. -/
def size (l : LetterClass) : Nat := l.folds.length

/-- A folded letter that two classes share. -/
def common? (l m : LetterClass) : Option Char := l.folds.find? m.folds.contains

theorem common?_eq_none_iff {l m : LetterClass} :
    l.common? m = none ↔ ∀ c ∈ l.folds, c ∉ m.folds := by
  simp [common?]

end LetterClass

end Translit
