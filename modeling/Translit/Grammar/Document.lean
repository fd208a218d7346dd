import Translit.Grammar.Error
import Translit.Json.Record

/-!
# Grammar documents

A grammar is written as a JSON document. Reading it takes two steps: the document as written, and
the grammar it describes.

* `ConditionEntry`, `RuleEntry`, `PatternEntry`, `Document`: the document as written;
* `Document.ofJson?`: the document that a JSON value holds;
* `Document.toGrammar`: the grammar it describes, or the first thing wrong with it;
* `Grammar.decode`: both steps, from bytes.
-/

namespace Translit.Grammar

/-- A condition as written. -/
structure ConditionEntry where
  kind : List Char
  scope? : Option (List Char) := none
  value? : Option (List Char) := none
  deriving DecidableEq, Repr

/-- A rule as written. -/
structure RuleEntry where
  conditions : List ConditionEntry
  replace : List Char
  deriving DecidableEq, Repr

/-- A pattern as written. -/
structure PatternEntry where
  find : List Char
  replace : List Char
  rules? : Option (List RuleEntry) := none
  deriving DecidableEq, Repr

/-- A grammar as written. -/
structure Document where
  vowel : List Char
  consonant : List Char
  caseSensitive : List Char
  patterns : List PatternEntry
  deriving DecidableEq, Repr

/-! ## The document in a JSON value -/

open Json (Value)

/-- A condition has a type, and may have a scope and a value. -/
def ConditionEntry.ofJson? (v : Value) : Option ConditionEntry := do
  match ← v.record? ["type".toList, "scope".toList, "value".toList] with
  | [kind, scope, value] =>
    some ⟨← kind >>= Value.text?, ← Value.optional? Value.text? scope,
      ← Value.optional? Value.text? value⟩
  | _ => none

/-- A rule has matches and a replacement. -/
def RuleEntry.ofJson? (v : Value) : Option RuleEntry := do
  match ← v.record? ["matches".toList, "replace".toList] with
  | [conditions, replace] =>
    some ⟨← conditions >>= Value.elements? ConditionEntry.ofJson?, ← replace >>= Value.text?⟩
  | _ => none

/-- A pattern has a find sequence and a replacement, and may have rules. -/
def PatternEntry.ofJson? (v : Value) : Option PatternEntry := do
  match ← v.record? ["find".toList, "replace".toList, "rules".toList] with
  | [find, replace, rules] =>
    some ⟨← find >>= Value.text?, ← replace >>= Value.text?,
      ← Value.optional? (Value.elements? RuleEntry.ofJson?) rules⟩
  | _ => none

/-- A document has three letter classes and its patterns. -/
def Document.ofJson? (v : Value) : Option Document := do
  match ← v.record? ["vowel".toList, "consonant".toList, "casesensitive".toList,
      "patterns".toList] with
  | [vowel, consonant, caseSensitive, patterns] =>
    some ⟨← vowel >>= Value.text?, ← consonant >>= Value.text?, ← caseSensitive >>= Value.text?,
      ← patterns >>= Value.elements? PatternEntry.ofJson?⟩
  | _ => none

/-! ## The grammar of a document -/

/-- The side that a type names. -/
def sideOf? (name : List Char) : Option Side :=
  if name = "prefix".toList then some .before
  else if name = "suffix".toList then some .after
  else none

/-- A scope as written is negated by one exclamation mark in front of its name. -/
def splitNegation : List Char → Bool × List Char
  | '!' :: name => (true, name)
  | name => (false, name)

/-- The scope of a name in the pattern `find`; `raw` is the scope as written. -/
def scopeOf (find raw name : List Char) (value? : Option (List Char)) : Except Error Scope :=
  if name = "vowel".toList then .ok .vowel
  else if name = "consonant".toList then .ok .consonant
  else if name = "punctuation".toList then .ok .punctuation
  else if name = "exact".toList then
    match value? with
    | some value => .ok (.exact value)
    | none => .error (.missingExactValue find)
  else .error (.unknownScope find raw)

/-- The condition that an entry of the pattern `find` describes. -/
def ConditionEntry.toCondition (find : List Char) (e : ConditionEntry) : Except Error Condition :=
  match sideOf? e.kind with
  | none => .error (.unknownSide find e.kind)
  | some side =>
    match e.scope? with
    | none => .ok { side }
    | some raw => do
      let (negated, name) := splitNegation raw
      let scope ← scopeOf find raw name e.value?
      return { side, scope? := some scope, negated }

/-- The rule that an entry of the pattern `find` describes. -/
def RuleEntry.toRule (find : List Char) (e : RuleEntry) : Except Error Rule := do
  return ⟨← e.conditions.mapM (·.toCondition find), e.replace⟩

/-- The rules that the entries of the pattern `find` describe. Where the list of entries is empty
there are none, as where it is left out. -/
def readRules? (find : List Char) : Option (List RuleEntry) → Except Error (Option (List Rule))
  | none => .ok none
  | some entries =>
    if entries.isEmpty then .ok none else (entries.mapM (RuleEntry.toRule find)).map some

/-- The pattern that the entry at `index` describes. -/
def PatternEntry.toPattern (index : Nat) (e : PatternEntry) : Except Error Pattern := do
  if e.find.isEmpty then throw (.emptyFind index)
  return ⟨e.find, e.replace, ← readRules? e.find e.rules?⟩

/-- The grammar that a document describes. The patterns are looked at before the classes. -/
def Document.toGrammar (d : Document) : Except Error Grammar := do
  let patterns ← d.patterns.zipIdx.mapM fun (e, index) => e.toPattern index
  build d.vowel d.consonant d.caseSensitive patterns

/-- The document in a file's bytes. -/
def Document.ofBytes? (bytes : Text.Utf8.Bytes) : Option Document :=
  Value.ofBytes? bytes >>= Document.ofJson?

/-- The grammar in a file's bytes. -/
def decode (bytes : Text.Utf8.Bytes) : Except Error Grammar :=
  match Document.ofBytes? bytes with
  | some d => d.toGrammar
  | none => .error .malformed

end Translit.Grammar
