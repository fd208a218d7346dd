import Translit.Text.File
import Translit.Toml.Document
import Translit.Toml.Record
import Translit.Transliterator

/-!
# Corpora

A corpus lists texts with the conversions that are expected of them.

* `Case`, `Corpus`, `Corpus.parse`: a corpus in a TOML document;
* `Corpus.selects`: whether a case is of a category;
* `Report`, `Corpus.run`: how a transliterator does on a corpus.
-/

namespace Translit

/-- A text and its expected conversion. -/
structure Case where
  input : List Char
  expected : List Char
  category? : Option (List Char) := none
  skip : Bool := false
  deriving DecidableEq, Repr

/-- A list of cases. -/
abbrev Corpus := List Case

/-- A case that came out differently. -/
structure Failure where
  input : List Char
  expected : List Char
  actual : List Char
  deriving DecidableEq, Repr

/-- How many cases came out as expected, how many were skipped, and those that failed. -/
structure Report where
  passed : Nat := 0
  skipped : Nat := 0
  failures : List Failure := []
  deriving DecidableEq, Repr

namespace Report

/-- The number of cases looked at. -/
def total (r : Report) : Nat := r.passed + r.skipped + r.failures.length

/-- No case failed. -/
def isSuccess (r : Report) : Bool := r.failures.isEmpty

end Report

namespace Corpus

/-- Why there is no corpus. -/
inductive Error
  | unreadable (fault : Text.Fault)
  | malformed
  deriving DecidableEq, Repr

/-- The wording of an error. -/
def Error.message : Error → String
  | unreadable fault => "IO error: " ++ fault.message
  | malformed => "TOML parse error: not a corpus"

open Toml (Value)

/-- A case has an input and an expected output, and may have a category and a mark to skip it. -/
def readCase? (v : Value) : Option Case := do
  match ← v.record? ["input".toList, "expected".toList, "category".toList, "skip".toList] with
  | [some input, some expected, category, skip] =>
    some {
      input := ← input.text?
      expected := ← expected.text?
      category? := ← Value.optional? Value.text? category
      skip := (← Value.optional? Value.flag? skip).getD false }
  | _ => none

/-- A corpus has a list of cases. -/
def read? (document : Value) : Option Corpus := do
  match ← document.record? ["cases".toList] with
  | [some cases] => cases.elements? readCase?
  | _ => none

/-- The corpus in a document. -/
def parse (document : List Char) : Except Error Corpus :=
  match Toml.parse? document >>= read? with
  | some corpus => .ok corpus
  | none => .error .malformed

/-- The corpus in a file. -/
def load (files : Text.Files) (name : String) : Except Error Corpus :=
  match files.readText name with
  | .ok document => parse document
  | .error fault => .error (.unreadable fault)

/-- The case is one of those asked for. -/
def selects (category? : Option (List Char)) (c : Case) : Bool :=
  match category? with
  | none => true
  | some category => c.category? == some category

/-- The report with one more case. -/
def judge (t : Transliterator) (r : Report) (c : Case) : Report :=
  if c.skip then { r with skipped := r.skipped + 1 }
  else
    let actual := t.convert c.input
    if actual = c.expected then { r with passed := r.passed + 1 }
    else { r with failures := r.failures ++ [⟨c.input, c.expected, actual⟩] }

/-- How a transliterator does on the cases asked for. -/
def run (t : Transliterator) (corpus : Corpus) (category? : Option (List Char)) : Report :=
  corpus.foldl (fun r c => if selects category? c then judge t r c else r) {}

end Corpus

end Translit
