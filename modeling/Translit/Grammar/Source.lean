import Translit.Grammar.Phonetic

/-!
# Where a grammar comes from

* `Source`, `Source.describe`: the embedded grammar, bytes at hand, or a file;
* `Source.load`: the grammar that is there.
-/

namespace Translit.Grammar

open Text (Files)
open Text.Utf8 (Bytes)

/-- A place where a grammar can be had. -/
inductive Source
  | embedded
  | bytes (content : Bytes)
  | file (name : String)
  deriving DecidableEq, Repr

namespace Source

/-- The place in words. -/
def describe : Source → String
  | embedded => "embedded"
  | bytes content => "<" ++ toString content.length ++ " bytes>"
  | file name => name

/-- The grammar of a source, where `files` are the files there are. -/
def load (files : Files) : Source → Except Error Grammar
  | embedded => Grammar.embedded
  | bytes content => decode content
  | file name =>
    match files.read name with
    | .ok content => decode content
    | .error fault => .error (.unreadable fault)

/-- The source that a file name asks for, if there is one. -/
def choose : Option String → Source
  | some name => file name
  | none => embedded

end Source

end Translit.Grammar
