import Translit.Grammar.Phonetic
import Translit.Json.Printer

/-!
# The layout of a grammar document

A grammar is written for people to read: a pattern to a line, its rules on lines of their own, and
the conditions of a rule beside each other until a rule has more than three.

* `Document.layout`: the text of a document.
-/

namespace Translit.Grammar

open Json (quoted)

/-- A member of an object on one line. -/
def member (key : String) (value : List Char) : List Char :=
  quoted key.toList ++ ": ".toList ++ value

/-- An object on one line. -/
def inlineObject (members : List (List Char)) : List Char :=
  '\x7b' :: ", ".toList.intercalate members ++ ['\x7d']

/-- A condition, on one line. -/
def ConditionEntry.layout (e : ConditionEntry) : List Char :=
  inlineObject <|
    member "type" (quoted e.kind) ::
      (e.scope?.map fun scope => member "scope" (quoted scope)).toList ++
      (e.value?.map fun value => member "value" (quoted value)).toList

/-- The largest number of conditions that stand on one line. -/
def inlineConditions : Nat := 3

/-- A rule, its conditions beside each other or, if `spread`, on lines of their own. -/
def RuleEntry.layout (spread : Bool) (e : RuleEntry) : List Char :=
  let conditions := e.conditions.map ConditionEntry.layout
  let body :=
    if spread then
      "[\n        ".toList ++ ",\n        ".toList.intercalate conditions ++ "\n      ]".toList
    else '[' :: ", ".toList.intercalate conditions ++ [']']
  inlineObject [member "matches" body, member "replace" (quoted e.replace)]

/-- The rules of a pattern. From the first rule with many conditions on, all of them are spread. -/
def layoutRules : Bool → List RuleEntry → List (List Char)
  | _, [] => []
  | spread, e :: es =>
    let spread := spread || inlineConditions < e.conditions.length
    e.layout spread :: layoutRules spread es

/-- A pattern. -/
def PatternEntry.layout (e : PatternEntry) : List Char :=
  let rules := e.rules?.map fun rules =>
    member "rules" <|
      "[\n      ".toList ++ ",\n      ".toList.intercalate (layoutRules false rules) ++
        "\n    ]".toList
  inlineObject <|
    member "find" (quoted e.find) :: member "replace" (quoted e.replace) :: rules.toList

/-- The text of a document. -/
def Document.layout (d : Document) : List Char :=
  let patterns :=
    "[\n    ".toList ++ ",\n    ".toList.intercalate (d.patterns.map PatternEntry.layout) ++
      "\n  ]".toList
  "\x7b\n  ".toList ++
    ",\n  ".toList.intercalate [member "vowel" (quoted d.vowel),
      member "consonant" (quoted d.consonant), member "casesensitive" (quoted d.caseSensitive),
      member "patterns" patterns] ++
    "\n\x7d\n".toList

end Translit.Grammar
