import Translit.Mode
import Translit.Resolution
import Translit.Text.Quoted
import Translit.Toml.Document
import Translit.Toml.Record

/-!
# Settings

* `Settings`: the policy of rules and the mode of callers that name none;
* `Settings.parse`: the settings in a TOML document, or what is wrong with it;
* `Settings.defaultDocument`: the document that holds where none is given.
-/

namespace Translit

/-- The settings, with the default mode also as it was written. -/
structure Settings where
  policy : Policy
  modeName : List Char
  mode : Mode
  deriving DecidableEq, Repr

namespace Settings

/-- Why settings are not taken. -/
inductive Error
  | malformed
  | unknownMode (name : List Char)
  | alreadyInitialized
  deriving DecidableEq, Repr

/-- The wording of an error. -/
def Error.message : Error → String
  | malformed => "TOML parse error: not a settings document"
  | unknownMode name =>
    "invalid value for engine.default_mode: unknown mode " ++ Text.Quoted.quote name
  | alreadyInitialized => "settings already initialized"

open Toml (Value)

/-- The policy of a name. -/
def policyOf? (name : List Char) : Option Policy :=
  if name = "negatable".toList then some .negatable
  else if name = "strict".toList then some .strict
  else none

/-- The policy and the name of the default mode, one each in the parts `rules` and `engine`. -/
def read? (document : Value) : Option (Policy × List Char) := do
  match ← document.record? ["rules".toList, "engine".toList] with
  | [some rules, some engine] =>
    match ← rules.record? ["exact_out_of_range".toList],
      ← engine.record? ["default_mode".toList] with
    | [some policy], [some mode] => some (← policy.variant? >>= policyOf?, ← mode.text?)
    | _, _ => none
  | _ => none

/-- The settings in a document. -/
def parse (document : List Char) : Except Error Settings :=
  match Toml.parse? document >>= read? with
  | none => .error .malformed
  | some (policy, modeName) =>
    match Mode.ofName? modeName with
    | some mode => .ok { policy, modeName, mode }
    | none => .error (.unknownMode modeName)

/-- The settings document that holds where none is given. -/
def defaultDocument : String :=
"[rules]
# How an `exact` condition whose comparison window runs past either end of
# the input is judged:
#   \"negatable\" - the comparison is false, so `!exact` passes
#   \"strict\"    - the condition fails whether negated or not
exact_out_of_range = \"negatable\"

[engine]
# Mode used by callers that do not name one (CLI default).
default_mode = \"avro\"
"

end Settings

end Translit
