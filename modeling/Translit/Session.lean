import Translit.Grammar.Layout
import Translit.Grammar.Source
import Translit.Settings
import Translit.Transliterator

/-!
# Sessions

A session holds settings and a transliterator that are fixed when they are first used. A document
for either may be installed once, before that.

* `Session`: the installed documents, and what has been fixed;
* `Session.Origin`: where a step has its grammar from;
* `Session.installSettings`, `Session.installGrammar`, `Session.settings`, `Session.global`;
* `Step`, `Answer`, `Session.step`, `Session.run`: what a user does and is told.
-/

namespace Translit

open Text.Utf8 (Bytes)

/-- The state of a session: the documents that have been installed, and the settings and the
transliterator once they are fixed. -/
structure Session where
  settingsDocument? : Option (List Char) := none
  settings? : Option Settings := none
  grammarDocument? : Option (List Char) := none
  global? : Option Transliterator := none

namespace Session

/-- Why a step fails. -/
inductive Error
  | settings (cause : Settings.Error)
  | grammar (cause : Grammar.Error)
  | transliterator (cause : Transliterator.Error)
  deriving DecidableEq, Repr

/-- A computation that may change the session. What it has changed stays changed when it fails. -/
abbrev Action := ExceptT Error (StateM Session)

/-- The grammar of a document, the embedded one without it. -/
def grammarOf : Option Bytes → Except Grammar.Error Grammar
  | some document => Grammar.decode document
  | none => Grammar.embedded

/-- Where a step has its grammar from: it is at hand, or in a document (the embedded one if none is
given), or at a source, where `files` are the files there are. -/
inductive Origin
  | grammar (g : Grammar)
  | document (bytes? : Option Bytes)
  | source (files : Text.Files) (place : Grammar.Source)
  deriving DecidableEq, Repr

/-- A document stands for the grammar in it. -/
instance : Coe (Option Bytes) Origin := ⟨.document⟩

/-- The grammar, or why there is none. A source is read for a transliterator. -/
def Origin.load : Origin → Except Error Grammar
  | grammar g => .ok g
  | document bytes? => (grammarOf bytes?).mapError .grammar
  | source files place => (place.load files).mapError (.transliterator ∘ .grammar)

/-- A result of reading settings. -/
def ofSettings {α : Type} (r : Except Settings.Error α) : Action α :=
  ExceptT.mk (pure (r.mapError .settings))

/-- A result of reading a grammar. -/
def ofGrammar {α : Type} (r : Except Grammar.Error α) : Action α :=
  ExceptT.mk (pure (r.mapError .grammar))

/-- A result of a transliterator. -/
def ofTransliterator {α : Type} (r : Except Transliterator.Error α) : Action α :=
  ExceptT.mk (pure (r.mapError .transliterator))

/-- Installs a settings document. It must be one even if it comes too late. -/
def installSettings (document : List Char) : Action Unit := do
  discard (ofSettings (Settings.parse document))
  let s ← get
  if s.settings?.isSome || s.settingsDocument?.isSome then
    throw (.settings .alreadyInitialized)
  set { s with settingsDocument? := some document }

/-- The settings of the session, which are fixed from here on. -/
def settings : Action Settings := do
  let s ← get
  match s.settings? with
  | some settings => return settings
  | none =>
    let document := s.settingsDocument?.getD Settings.defaultDocument.toList
    let settings ← ofSettings (Settings.parse document)
    set { s with settings? := some settings }
    return settings

/-- Installs a grammar document, the embedded one if none is given. It must be one even if it comes
too late. -/
def installGrammar (document? : Option (List Char)) : Action Unit := do
  let document := document?.getD Grammar.phonetic.layout
  discard (ofTransliterator ((Grammar.decode (Text.Utf8.encode document)).mapError .grammar))
  let s ← get
  if s.global?.isSome || s.grammarDocument?.isSome then
    throw (.transliterator .alreadyInitialized)
  set { s with grammarDocument? := some document }

/-- The transliterator of a grammar, under the policy of the session's settings. -/
def transliterator (g : Grammar) : Action Transliterator := do
  return .ofGrammar g (← settings).policy

/-- The transliterator of the session, which is fixed from here on. -/
def global : Action Transliterator := do
  match (← get).global? with
  | some t => return t
  | none =>
    let g ← ofGrammar (grammarOf ((← get).grammarDocument?.map Text.Utf8.encode))
    let t ← transliterator g
    modify ({ · with global? := some t })
    return t

end Session

/-- What a user may do in a session. -/
inductive Step
  | installSettings (document : List Char)
  | readSettings
  | installGrammar (document? : Option (List Char))
  | convert (text mode : List Char)
  | describe
  | convertWith (origin : Session.Origin) (text : List Char)
  | convertInDefaultMode (origin : Session.Origin) (text : List Char)
  | convertUnder (policy : Policy) (origin : Session.Origin) (text : List Char)
  deriving DecidableEq, Repr

/-- What a user is told. -/
inductive Answer
  | done
  | settings (policy : Policy) (mode : Mode)
  | converted (text : List Char)
  | description (patterns nodes : Nat) (policy : Policy)
  | convertedUnder (policy : Policy) (text : List Char)
  deriving DecidableEq, Repr

namespace Session

/-- A step as a computation. -/
def perform : Step → Action Answer
  | .installSettings document => installSettings document *> pure .done
  | .readSettings => do
    let s ← settings
    return .settings s.policy s.mode
  | .installGrammar document? => installGrammar document? *> pure .done
  | .convert text mode => do
    let t ← global
    return .converted (← ofTransliterator (t.transliterateNamed text mode))
  | .describe => do
    let t ← global
    return .description t.grammar.patterns.length t.trie.nodeCount t.policy
  | .convertWith origin text => do
    let t ← transliterator (← ExceptT.mk (pure origin.load))
    return .convertedUnder t.policy (t.convert text)
  | .convertInDefaultMode origin text => do
    let t ← transliterator (← ExceptT.mk (pure origin.load))
    let s ← settings
    return .converted (← ofTransliterator (t.transliterate text s.mode))
  | .convertUnder policy origin text => do
    let t := Transliterator.ofGrammar (← ExceptT.mk (pure origin.load)) policy
    return .convertedUnder t.policy (t.convert text)

/-- One step: the answer or the error, and the state after it. -/
def step (s : Session) (a : Step) : Except Error Answer × Session := (perform a).run.run s

/-- The answers to a sequence of steps. -/
def run (s : Session) : List Step → List (Except Error Answer)
  | [] => []
  | a :: as =>
    let (answer, s) := s.step a
    answer :: s.run as

end Session

end Translit
