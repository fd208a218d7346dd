import Translit.Corpus
import Translit.Json.Printer
import Translit.Session
import Translit.Text.Quoted

/-!
# Reports

What the commands print about the steps of a conversion, a sequence, a corpus, a grammar and
settings.
-/

namespace Translit.Tool

open Text.Quoted (quote)
open Json (Value)

/-- A line of text. -/
def line (s : String) : String := s ++ "\n"

/-- A text filled up with blanks on the left. -/
def padLeft (width : Nat) (s : String) : String :=
  String.ofList (List.replicate (width - s.length) ' ') ++ s

/-- A text filled up with blanks on the right. -/
def padRight (width : Nat) (s : String) : String :=
  s ++ String.ofList (List.replicate (width - s.length) ' ')

/-! ## Steps of a conversion -/

/-- The pattern and the rule that a step comes from. -/
def origin (s : Segment) : String :=
  match s.pattern?, s.rule? with
  | none, _ => "literal"
  | some find, none => "pattern " ++ quote find ++ " default"
  | some find, some rule => "pattern " ++ quote find ++ " rule #" ++ toString rule

/-- A step on a line. -/
def segmentLine (s : Segment) : String :=
  line <| padLeft 3 (toString s.start) ++ ".." ++ padRight 3 (toString s.stop) ++ " " ++
    padRight 6 (String.ofList s.source) ++ " -> " ++ padRight 8 (String.ofList s.output) ++ " " ++
    origin s

/-- All steps, and the conversion they make up. -/
def explanation (segments : List Segment) : String :=
  String.join (segments.map segmentLine) ++ line ("= " ++ String.ofList (surface segments))

/-- A step as a JSON value. -/
def segmentValue (s : Segment) : Value :=
  .object [
    (some "start".toList, .nat s.start),
    (some "end".toList, .nat s.stop),
    (some "source".toList, .text s.source),
    (some "output".toList, .text s.output),
    (some "pattern".toList, (s.pattern?.map Value.text).getD .null),
    (some "rule".toList, (s.rule?.map Value.nat).getD .null)]

/-- All steps as a JSON document. -/
def explanationDocument (segments : List Segment) : String :=
  line (String.ofList (Value.array (segments.map segmentValue)).print)

/-! ## Other reports -/

/-- What a transliterator knows of a sequence. -/
def lookupLine (t : Transliterator) (sequence : String) : String :=
  let found := t.trie.lookup sequence.toList
  let answer :=
    match found.word?.bind (t.grammar.patterns[·]?) with
    | none => if found.continues then "prefix only" else "no match"
    | some p =>
      (if found.continues then "exact and prefix" else "exact") ++ " -> " ++
        String.ofList p.replace ++ " (" ++ toString p.rules.length ++ " rules)"
  line (sequence ++ ": " ++ answer)

/-- A case that came out differently. -/
def failureLine (f : Failure) : String :=
  line <| "FAIL " ++ quote f.input ++ ": expected " ++ quote f.expected ++ ", got " ++
    quote f.actual

/-- How a transliterator does on a corpus. -/
def accuracyReport (r : Report) (verbose : Bool) : String :=
  String.join (r.failures.map failureLine) ++
    (if verbose then line ("skipped: " ++ toString r.skipped) else "") ++
    line (toString r.passed ++ "/" ++ toString r.total ++ " passed")

/-- The size of a grammar. -/
def grammarLine (g : Grammar) : String :=
  let withRules := g.patterns.countP fun p => p.rules?.isSome
  line <| "OK: " ++ toString g.patterns.length ++ " patterns (" ++ toString withRules ++
    " with rules), " ++ toString g.vowels.size ++ " vowels, " ++ toString g.consonants.size ++
    " consonants"

/-- The settings. -/
def settingsLine (s : Settings) : String :=
  line <| "OK: rules.exact_out_of_range=" ++ s.policy.title ++ ", engine.default_mode=" ++
    s.mode.name

end Translit.Tool
