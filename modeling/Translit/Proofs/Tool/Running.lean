import Translit.Proofs.Session.WriteOnce
import Translit.Proofs.Tool.Tracing
import Translit.Tool.Run

/-!
# What a run begins with

Before a command does anything of its own, the settings are loaded, a mode is chosen and a grammar
is read.

* `InForce`, `SettingsFault`: the settings that hold, or what is wrong with their file;
* `Chosen`: the mode of a conversion;
* `Command.grammar?`, `Command.run_of_grammar_error`: the commands that read a grammar, and what
  they come to without one;
* `Invocation.run_eq`: the outcome of an invocation, with the notice in front of its messages;
* `Invocation.plain_of_settings_error`, `Invocation.plain_of_settings`: without the notice.
-/

namespace Translit.Tool

open Text (Files)
open Text.Utf8 (Bytes)
open Text.Quoted (quote)

variable {files : Files} {settings? : Option String} {x : Settings}

/-! ## Runs that end early -/

section Run

variable {α β : Type}

@[simp] theorem Run.ok_bind (a : α) (f : α → Run β) : ((.ok a : Run α) >>= f) = f a := rfl

@[simp] theorem Run.error_bind (o : Outcome) (f : α → Run β) :
    ((.error o : Run α) >>= f) = .error o := rfl

end Run

/-! ## Settings -/

/-- The settings that hold in a run: those of a session in which nothing has been done but to
install the document of the file, if one is named. -/
inductive InForce (files : Files) : Option String → Settings → Prop
  | unnamed {x : Settings} (settings : (Session.settings.run.run {}).1 = .ok x) :
      InForce files none x
  | named {name : String} {document : List Char} {x : Settings}
      (read : files.readText name = .ok document)
      (installed : (Session.step {} (.installSettings document)).1 = .ok .done)
      (settings :
        (Session.settings.run.run (Session.step {} (.installSettings document)).2).1 = .ok x) :
      InForce files (some name) x

/-- What is wrong with a file of settings, with the message: it cannot be read, is no text, is no
settings document, or names a mode that there is not. -/
inductive SettingsFault (files : Files) (name : String) : String → Prop
  | unreadable {fault : Text.Fault} (read : files.read name = .error fault) :
      SettingsFault files name ("Error reading " ++ name ++ ": " ++ fault.message)
  | notText {bytes : Bytes} (read : files.read name = .ok bytes)
      (text : Text.Utf8.text? bytes = none) :
      SettingsFault files name
        ("Error reading " ++ name ++ ": " ++ "stream did not contain valid UTF-8")
  | malformed {bytes : Bytes} {document : List Char} (read : files.read name = .ok bytes)
      (text : Text.Utf8.text? bytes = some document)
      (parse : Toml.parse? document >>= Settings.read? = none) :
      SettingsFault files name ("Error: " ++ "TOML parse error: not a settings document")
  | unknownMode {bytes : Bytes} {document modeName : List Char} {policy : Policy}
      (read : files.read name = .ok bytes) (text : Text.Utf8.text? bytes = some document)
      (parse : Toml.parse? document >>= Settings.read? = some (policy, modeName))
      (mode : Mode.ofName? modeName = none) :
      SettingsFault files name ("Error: " ++
        ("invalid value for engine.default_mode: unknown mode " ++ quote modeName))

theorem readText_of_read {name : String} {bytes : Bytes} (read : files.read name = .ok bytes) :
    files.readText name = Text.textOf bytes := by
  rw [Text.Files.readText, read]
  rfl

theorem readText_of_text {name : String} {bytes : Bytes} {document : List Char}
    (read : files.read name = .ok bytes) (text : Text.Utf8.text? bytes = some document) :
    files.readText name = .ok document := by
  rw [readText_of_read read, Text.textOf, text]

theorem loadSettings_of_text {name : String} {document : List Char}
    (read : files.readText name = .ok document) : loadSettings files (some name) =
      orFail Settings.Error.message "Error: " (Settings.parse document) := by
  rw [loadSettings, read]
  rfl

theorem loadSettings_of_fault {name message : String} (h : SettingsFault files name message) :
    loadSettings files (some name) = .error (.failure 1 message) := by
  cases h with
  | unreadable read =>
    rw [loadSettings, Text.Files.readText, read]
    rfl
  | notText read text =>
    rw [loadSettings, readText_of_read read, Text.textOf, text]
    rfl
  | @malformed _ document read text parse =>
    have hparse : Settings.parse document = .error .malformed := by rw [Settings.parse, parse]
    rw [loadSettings_of_text (readText_of_text read text), hparse]
    rfl
  | @unknownMode _ document modeName _ read text parse mode =>
    have hparse : Settings.parse document = .error (.unknownMode modeName) := by
      rw [Settings.parse, parse]
      simp only [mode]
    rw [loadSettings_of_text (readText_of_text read text), hparse]
    rfl

/-- A session that has fixed no settings reads them in its document. -/
theorem settings_run_fst {document : List Char} (s : Session) (hs : s.settings? = none)
    (hdocument : s.settingsDocument?.getD Settings.defaultDocument.toList = document) :
    (Session.settings.run.run s).1 = .ok x ↔ Settings.parse document = .ok x := by
  unfold Session.settings
  rw [Session.bind_ok (Session.get_run s), hs]
  show ((Session.ofSettings (Settings.parse _) >>= _).run.run s).1 = .ok x ↔ _
  rw [hdocument]
  cases Settings.parse document with
  | error e => constructor <;> intro h <;> cases h
  | ok y => constructor <;> intro h <;> cases h <;> rfl

theorem inForce_none : InForce files none x ↔
    Settings.parse Settings.defaultDocument.toList = .ok x := by
  -- by the lemma on `getD`: the kernel would read the characters of the document otherwise
  have hrun := settings_run_fst (x := x) {} rfl Option.getD_none
  constructor
  · intro h
    cases h with
    | unnamed settings => exact hrun.1 settings
  · intro h
    exact .unnamed (hrun.2 h)

theorem step_installSettings_of_parse {document : List Char}
    (h : Settings.parse document = .ok x) : Session.step {} (.installSettings document) =
      (.ok .done, { settingsDocument? := some document }) := by
  rw [Session.step_installSettings, h]
  simp [Session.attempt]

theorem inForce_some {name : String} : InForce files (some name) x ↔
    ∃ document, files.readText name = .ok document ∧ Settings.parse document = .ok x := by
  constructor
  · intro h
    cases h with
    | @named _ document _ read installed settings =>
      refine ⟨document, read, ?_⟩
      cases hparse : Settings.parse document with
      | error e =>
        rw [Session.step_installSettings, hparse] at installed
        cases installed
      | ok y =>
        rw [step_installSettings_of_parse hparse] at settings
        rw [← hparse]
        exact (settings_run_fst { settingsDocument? := some document } rfl rfl).1 settings
  · rintro ⟨document, read, hparse⟩
    refine .named read ?_ ?_
    · rw [step_installSettings_of_parse hparse]
    · rw [step_installSettings_of_parse hparse]
      exact (settings_run_fst { settingsDocument? := some document } rfl rfl).2 hparse

theorem loadSettings_of_inForce (h : InForce files settings? x) :
    loadSettings files settings? = .ok x := by
  cases settings? with
  | none =>
    rw [loadSettings, inForce_none.1 h]
    rfl
  | some name =>
    obtain ⟨document, read, hparse⟩ := inForce_some.1 h
    rw [loadSettings_of_text read, hparse]
    rfl

/-- There are settings in a run, unless something is wrong with their file. -/
theorem fault_or_inForce (files : Files) (settings? : Option String) :
    (∃ name message, settings? = some name ∧ SettingsFault files name message) ∨
      ∃ x, InForce files settings? x := by
  cases settings? with
  | none =>
    obtain ⟨x, hx⟩ := Session.exists_parse_defaultDocument
    exact .inr ⟨x, inForce_none.2 hx⟩
  | some name =>
    cases hread : files.read name with
    | error fault => exact .inl ⟨name, _, rfl, .unreadable hread⟩
    | ok bytes =>
      cases htext : Text.Utf8.text? bytes with
      | none => exact .inl ⟨name, _, rfl, .notText hread htext⟩
      | some document =>
        cases hparse : Toml.parse? document >>= Settings.read? with
        | none => exact .inl ⟨name, _, rfl, .malformed hread htext hparse⟩
        | some parts =>
          obtain ⟨policy, modeName⟩ := parts
          cases hmode : Mode.ofName? modeName with
          | none => exact .inl ⟨name, _, rfl, .unknownMode hread htext hparse hmode⟩
          | some mode =>
            refine .inr ⟨⟨policy, modeName, mode⟩, inForce_some.2 ⟨document, ?_, ?_⟩⟩
            · exact readText_of_text hread htext
            · rw [Settings.parse, hparse]
              simp only [hmode]

/-! ## Modes and grammars -/

/-- The mode of a conversion: the one that is asked for, or else that of the settings. -/
inductive Chosen (x : Settings) : Option String → Mode → Prop
  | given {name : String} {mode : Mode} (known : Mode.ofName? name.toList = some mode) :
      Chosen x (some name) mode
  | ofSettings : Chosen x none x.mode

theorem chooseMode_of_chosen {mode? : Option String} {mode : Mode} (h : Chosen x mode? mode) :
    chooseMode x mode? = .ok mode := by
  cases h with
  | given known =>
    rw [chooseMode, Transliterator.modeOf, known]
    rfl
  | ofSettings => rfl

theorem chooseMode_of_unknown {name : String} (h : Mode.ofName? name.toList = none) :
    chooseMode x (some name) =
      .error (.failure 2 ("Error: " ++ ("invalid mode: " ++ quote name.toList))) := by
  rw [chooseMode, Transliterator.modeOf, h]
  rfl

theorem openEngine_ok {policy : Policy} {grammar? : Option String} {g : Grammar}
    (h : (Grammar.Source.choose grammar?).load files = .ok g) :
    openEngine files policy grammar? = .ok (.ofGrammar g policy) := by
  rw [openEngine, Transliterator.ofSource, h]
  rfl

theorem openEngine_error {policy : Policy} {grammar? : Option String} {e : Grammar.Error}
    (h : (Grammar.Source.choose grammar?).load files = .error e) :
    openEngine files policy grammar? =
      .error (.failure 1 ("Error loading grammar: " ++ ("grammar load error: " ++ e.message))) := by
  rw [openEngine, Transliterator.ofSource, h]
  rfl

/-- **A mode that there is not** ends a conversion before its grammar is looked at. -/
theorem Command.run_of_unknown_mode {w : World} {text? grammar? : Option String} {name : String}
    (h : Mode.ofName? name.toList = none) :
    (Command.convert text? (some name) grammar?).run w x =
      .error (.failure 2 ("Error: " ++ ("invalid mode: " ++ quote name.toList))) := by
  simp only [Command.run, chooseMode_of_unknown h, Run.error_bind]

/-- The file of a command's grammar, if it is named, for the commands that convert or look up. -/
def Command.grammar? : Command → Option (Option String)
  | .convert _ _ grammar? | .explain _ grammar? _ | .lookup _ grammar?
  | .accuracy _ grammar? _ _ => some grammar?
  | .grammarExport | .grammarValidate _ | .settingsExport | .settingsValidate _ => none

/-- **A grammar that cannot be had** ends every command that needs one, before anything else is
looked at but the mode of a conversion. -/
theorem Command.run_of_grammar_error {w : World} {c : Command} {grammar? : Option String}
    {e : Grammar.Error} (hc : c.grammar? = some grammar?)
    (hmode : ∀ text? mode? grammar?, c = .convert text? mode? grammar? →
      ∃ mode, Chosen x mode? mode)
    (h : (Grammar.Source.choose grammar?).load w.files = .error e) :
    c.run w x =
      .error (.failure 1 ("Error loading grammar: " ++ ("grammar load error: " ++ e.message))) := by
  cases c with
  | convert text? mode? grammar? =>
    obtain ⟨mode, hchosen⟩ := hmode text? mode? grammar? rfl
    cases hc
    simp only [Command.run, chooseMode_of_chosen hchosen, openEngine_error h, Run.ok_bind,
      Run.error_bind]
  | explain text grammar? json =>
    cases hc
    simp only [Command.run, openEngine_error h, Run.error_bind]
  | lookup sequence grammar? =>
    cases hc
    simp only [Command.run, openEngine_error h, Run.error_bind]
  | accuracy corpus grammar? category? verbose =>
    cases hc
    simp only [Command.run, openEngine_error h, Run.error_bind]
  | grammarExport => cases hc
  | grammarValidate file => cases hc
  | settingsExport => cases hc
  | settingsValidate file => cases hc

theorem Command.run_convert (w : World) (text? : Option String) {mode? grammar? : Option String}
    {mode : Mode} {g : Grammar} (hmode : Chosen x mode? mode)
    (hg : (Grammar.Source.choose grammar?).load w.files = .ok g) :
    (Command.convert text? mode? grammar?).run w x =
      Tool.convert w (.ofGrammar g x.policy) mode text? := by
  simp only [Command.run, chooseMode_of_chosen hmode, openEngine_ok hg, Run.ok_bind]

/-! ## Invocations -/

namespace Invocation

variable {w : World} {i : Invocation} {arguments : List String}

/-- The notice in front of the messages of a run. -/
def notice (i : Invocation) : String := if i.traces then traceNotice else ""

/-- What a run comes to, whether it ends early or not. -/
def ending : Run Outcome → Outcome
  | .ok o => o
  | .error o => o

/-- The outcome of an invocation, without the notice. -/
def plain (w : World) (i : Invocation) : Outcome :=
  ending (loadSettings w.files i.settings? >>= fun x => i.command.run w x)

/-- **The notice** stands in front of the messages, and the run is otherwise the same. -/
theorem run_eq (w : World) (i : Invocation) :
    i.run w = { i.plain w with stderr := i.notice ++ (i.plain w).stderr } := by
  show (if i.traces = true then { i.plain w with stderr := traceNotice ++ (i.plain w).stderr }
    else i.plain w) = _
  rw [notice]
  by_cases ht : i.traces = true
  · rw [if_pos ht, if_pos ht]
  · rw [if_neg ht, if_neg ht, String.empty_append]

theorem plain_of_settings_error {o : Outcome} (h : loadSettings w.files i.settings? = .error o) :
    i.plain w = o := by
  rw [plain, h]
  rfl

theorem plain_of_settings (h : loadSettings w.files i.settings? = .ok x) :
    i.plain w = ending (i.command.run w x) := by
  rw [plain, h]
  rfl

theorem run_of_arguments (h : ofArguments? arguments = some i) :
    Tool.run w arguments = i.run w := by
  rw [Tool.run, h]

end Invocation

end Translit.Tool
