import Translit.LetterClass

/-!
# Grammars

A grammar says which letters are vowels, which are consonants and which keep their case, and lists
patterns. A pattern replaces a sequence of letters; its rules replace it by something else beside
certain neighbours.

* `Side`, `Scope`, `Condition`: what a rule asks of the text beside a match;
* `Rule`, `Pattern`, `Grammar`;
* `Pattern.rules`: the rules of a pattern, whether it has a list of them or not;
* `Grammar.isVowel`, `Grammar.isConsonant`, `Grammar.isPunctuation`, `Grammar.isCaseSensitive`:
  the classes of a character.
-/

namespace Translit

/-- The side of a match that a condition looks at. -/
inductive Side
  | before
  | after
  deriving DecidableEq, Repr

/-- What is looked for on that side: a character of a class next to the match, or a given text. -/
inductive Scope
  | vowel
  | consonant
  | punctuation
  | exact (value : List Char)
  deriving DecidableEq, Repr

/-- A condition of a rule. Without a scope it always holds. -/
structure Condition where
  side : Side
  scope? : Option Scope := none
  negated : Bool := false
  deriving DecidableEq, Repr

/-- A replacement for a match, under conditions that must all hold. -/
structure Rule where
  conditions : List Condition
  replace : List Char
  deriving DecidableEq, Repr

/-- A sequence of characters, its replacement, and the rules that come before that replacement, if
it has any. A grammar that is read from a document has no empty list of rules. -/
structure Pattern where
  find : List Char
  replace : List Char
  rules? : Option (List Rule) := none
  deriving DecidableEq, Repr

/-- The rules of the pattern. -/
def Pattern.rules (p : Pattern) : List Rule := p.rules?.getD []

/-- Letter classes and patterns. No letter is both a vowel and a consonant. -/
structure Grammar where
  vowels : LetterClass
  consonants : LetterClass
  caseSensitive : LetterClass
  patterns : List Pattern
  disjoint : ∀ c ∈ vowels.folds, c ∉ consonants.folds
  deriving DecidableEq, Repr

namespace Grammar

/-- The character is a vowel, in either case. -/
def isVowel (g : Grammar) (c : Char) : Bool := g.vowels.contains c

/-- The character is a consonant, in either case. -/
def isConsonant (g : Grammar) (c : Char) : Bool := g.consonants.contains c

/-- The character is neither a vowel nor a consonant. -/
def isPunctuation (g : Grammar) (c : Char) : Bool := !g.isVowel c && !g.isConsonant c

/-- Capital and small form of the character are different letters. -/
def isCaseSensitive (g : Grammar) (c : Char) : Bool := g.caseSensitive.contains c

end Grammar

end Translit
