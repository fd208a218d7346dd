import Translit.Grammar.Basic
import Translit.Text.File
import Translit.Text.Quoted

/-!
# What can be wrong with a grammar

* `Grammar.Error`, `Grammar.Error.message`: the causes and their wording;
* `Grammar.build`: a grammar from the texts of its classes.
-/

namespace Translit.Grammar

open Text.Quoted (quote quoteChar)

/-- Why there is no grammar. -/
inductive Error
  | unreadable (fault : Text.Fault)
  | malformed
  | emptyFind (index : Nat)
  | unknownSide (find value : List Char)
  | unknownScope (find value : List Char)
  | missingExactValue (find : List Char)
  | overlappingClasses (c : Char)
  deriving DecidableEq, Repr

/-- The wording of an error. -/
def Error.message : Error → String
  | unreadable fault => "IO error: " ++ fault.message
  | malformed => "JSON decode error: not a grammar document"
  | emptyFind index => "pattern #" ++ toString index ++ " has an empty find sequence"
  | unknownSide find value =>
    "pattern " ++ quote find ++ ": unknown match type " ++ quote value
  | unknownScope find value => "pattern " ++ quote find ++ ": unknown scope " ++ quote value
  | missingExactValue find => "pattern " ++ quote find ++ ": exact scope without a value"
  | overlappingClasses c =>
    "character " ++ quoteChar c ++ " is both a vowel and a consonant"

/-- A grammar from the texts that list its vowels, consonants and case-sensitive letters. -/
def build (vowels consonants caseSensitive : List Char) (patterns : List Pattern) :
    Except Error Grammar :=
  let v := LetterClass.ofText vowels
  let k := LetterClass.ofText consonants
  match h : v.common? k with
  | some c => .error (.overlappingClasses c)
  | none =>
    .ok ⟨v, k, LetterClass.ofText caseSensitive, patterns, LetterClass.common?_eq_none_iff.1 h⟩

end Translit.Grammar
