import Translit.Grammar.Layout
import Translit.Tool.Invocation
import Translit.Tool.Outcome
import Translit.Tool.Report

/-!
# Running the tool

* `World`: the files and the standard input of a run;
* `loadSettings`, `openEngine`: what commands begin with;
* `convertLines`: the conversion of standard input, line by line;
* `Command.run`, `Invocation.run`, `run`: the outcome of a command line.
-/

namespace Translit.Tool

open Text (Files)
open Text.Utf8 (Bytes)

/-- The files and the standard input of a run. -/
structure World where
  files : Files := []
  stdin : Bytes := []

/-- A run that may end early. -/
abbrev Run (α : Type) := Except Outcome α

/-- A result, or the end of the run with its error behind `label`. -/
def orFail {ε α : Type} (message : ε → String) (label : String) (r : Except ε α) : Run α :=
  r.mapError fun e => .failure 1 (label ++ message e)

/-- The settings in a file, or those that hold without one. -/
def loadSettings (files : Files) : Option String → Run Settings
  | some name => do
    let document ←
      orFail Text.Fault.message ("Error reading " ++ name ++ ": ") (files.readText name)
    orFail Settings.Error.message "Error: " (Settings.parse document)
  | none => orFail Settings.Error.message "Error: " (Settings.parse Settings.defaultDocument.toList)

/-- The transliterator of the grammar in a file, or of the embedded grammar. -/
def openEngine (files : Files) (policy : Policy) (grammar? : Option String) :
    Run Transliterator :=
  orFail Transliterator.Error.message "Error loading grammar: "
    (Transliterator.ofSource files (.choose grammar?) policy)

/-! ## Converting -/

/-- The output with the conversions of the lines added. A line that cannot be read or converted
ends the run; of the output only what has been written by then remains. -/
def convertLines (t : Transliterator) (mode : Mode) (o : Output) : List Bytes → Run Output
  | [] => return o
  | line :: lines => do
    let fail (message : String) : Outcome :=
      { Outcome.failure 1 message with stdout := String.ofList o.written }
    let text ← (Text.textOf line).mapError fun e => fail ("Error reading stdin: " ++ e.message)
    let converted ← (t.transliterate text mode).mapError fun e => fail ("Error: " ++ e.message)
    convertLines t mode (o.putLine converted) lines

/-- The conversion of an operand, or of the lines of standard input. -/
def convert (w : World) (t : Transliterator) (mode : Mode) : Option String → Run Outcome
  | some text => do
    let converted ← orFail Transliterator.Error.message "Error: " (t.transliterate text.toList mode)
    return { stdout := line (String.ofList converted) }
  | none => do
    let o ← convertLines t mode {} (lines w.stdin)
    return { stdout := String.ofList o.flush.written }

/-- The mode that is asked for, or else that of the settings. A mode that there is not is a mistake
on the command line, with the exit status of such. -/
def chooseMode (settings : Settings) : Option String → Run Mode
  | some name =>
    (Transliterator.modeOf name.toList).mapError fun e => .failure 2 ("Error: " ++ e.message)
  | none => return settings.mode

/-! ## Commands -/

/-- The outcome of a command under the settings. -/
def Command.run (w : World) (settings : Settings) : Command → Run Outcome
  | .convert text? mode? grammar? => do
    let mode ← chooseMode settings mode?
    let t ← openEngine w.files settings.policy grammar?
    Tool.convert w t mode text?
  | .explain text grammar? json => do
    let t ← openEngine w.files settings.policy grammar?
    let segments := t.explain text.toList
    return { stdout := if json then explanationDocument segments else explanation segments }
  | .lookup sequence grammar? => do
    let t ← openEngine w.files settings.policy grammar?
    return { stdout := lookupLine t sequence }
  | .accuracy corpus grammar? category? verbose => do
    let t ← openEngine w.files settings.policy grammar?
    let corpus ← orFail Corpus.Error.message "Error reading corpus: " (Corpus.load w.files corpus)
    let report := Corpus.run t corpus (category?.map String.toList)
    return {
      code := if report.isSuccess then 0 else 1
      stdout := accuracyReport report verbose }
  | .grammarExport => return { stdout := String.ofList Grammar.phonetic.layout }
  | .grammarValidate file => do
    let document ← orFail Text.Fault.message ("Error reading " ++ file ++ ": ") (w.files.read file)
    let g ← orFail Grammar.Error.message "Error: " (Grammar.decode document)
    return { stdout := grammarLine g }
  | .settingsExport => return { stdout := Settings.defaultDocument }
  | .settingsValidate file => return { stdout := settingsLine (← loadSettings w.files (some file)) }

/-- The notice that there is no tracing. -/
def traceNotice : String :=
  line "avrotool was built without the `trace` feature; tracing is disabled"

/-- The outcome of an invocation. The settings are loaded before anything else. -/
def Invocation.run (w : World) (i : Invocation) : Outcome :=
  let outcome :=
    match loadSettings w.files i.settings? >>= fun settings => i.command.run w settings with
    | .ok outcome => outcome
    | .error outcome => outcome
  if i.trace || i.traceDir?.isSome then
    { outcome with stderr := traceNotice ++ outcome.stderr }
  else outcome

/-- The outcome of arguments that spell no invocation. -/
def usage : Outcome :=
  .failure 2 "usage: avrotool [--settings FILE] [--trace] [--trace-dir DIR] COMMAND"

/-- The outcome of a command line. -/
def run (w : World) (arguments : List String) : Outcome :=
  match Invocation.ofArguments? arguments with
  | some i => i.run w
  | none => usage

end Translit.Tool
