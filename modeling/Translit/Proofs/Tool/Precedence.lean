import Translit.Proofs.Tool.Running

/-!
# Which fault prevails

Several things can be wrong with one command line. A fault of the file of settings prevails over a
mode that there is not, and that over a grammar that cannot be had; only then does what is to be
converted matter. A trace that is asked for changes none of this.

* `Ranked`: the outcome by the first fault that is met;
* `Invocation.run_of_command`: a command line and its command;
* `Invocation.ranked`: every invocation comes to that outcome;
* `Invocation.run_of_traced`: an invocation that differs in asking for a trace;
* `failure_precedence`: both for every command line.
-/

namespace Translit.Tool

open Text.Quoted (quote)

variable {w : World} {i i' : Invocation} {x : Settings}

/-- What the first fault that an invocation meets makes of its outcome, and what comes of the
conversion of an operand that meets none. -/
structure Ranked (w : World) (i : Invocation) (outcome : Outcome) : Prop where
  /-- Something is wrong with the file of settings, or there are settings. -/
  settled : (∃ name message, i.settings? = some name ∧ SettingsFault w.files name message) ∨
    ∃ x, InForce w.files i.settings? x
  /-- A fault of the file of settings, whatever the command. -/
  settings : ∀ name message, i.settings? = some name → SettingsFault w.files name message →
    outcome = { code := 1, stdout := "", stderr := i.notice ++ line message }
  /-- Otherwise a mode that there is not, whatever the grammar, the text and standard input. -/
  mode : ∀ x text? name grammar?, InForce w.files i.settings? x →
    i.command = .convert text? (some name) grammar? → Mode.ofName? name.toList = none →
    outcome = {
      code := 2
      stdout := ""
      stderr := i.notice ++ line ("Error: " ++ ("invalid mode: " ++ quote name.toList)) }
  /-- Otherwise a grammar that cannot be had, whatever the corpus and standard input. -/
  grammar : ∀ x name e, InForce w.files i.settings? x → i.command.grammar? = some (some name) →
    (∀ text? mode? grammar?, i.command = .convert text? mode? grammar? →
      ∃ mode, Chosen x mode? mode) →
    (Grammar.Source.file name).load w.files = .error e →
    outcome = {
      code := 1
      stdout := ""
      stderr := i.notice ++
        line ("Error loading grammar: " ++ ("grammar load error: " ++ e.message)) }
  /-- Otherwise an operand is converted, or the mode is one that has not been worked out. -/
  conversion : ∀ x text mode? grammar? mode g, InForce w.files i.settings? x →
    i.command = .convert (some text) mode? grammar? → Chosen x mode? mode →
    (Grammar.Source.choose grammar?).load w.files = .ok g →
    (∀ out, (Transliterator.ofGrammar g x.policy).transliterate text.toList mode = .ok out →
      outcome = { code := 0, stdout := line (String.ofList out), stderr := i.notice }) ∧
    ∀ e, (Transliterator.ofGrammar g x.policy).transliterate text.toList mode = .error e →
      outcome = {
        code := 1
        stdout := ""
        stderr := i.notice ++ line ("Error: " ++ (mode.name ++ " mode is not implemented")) }

/-! ## Conversions of an operand -/

section Convert

variable {t : Transliterator} {mode : Mode} {text : String}

theorem transliterate_error {cs : List Char} {e : Transliterator.Error}
    (h : t.transliterate cs mode = .error e) : e = .notImplemented mode := by
  cases mode <;> cases h <;> rfl

theorem convert_operand_ok {out : List Char} (h : t.transliterate text.toList mode = .ok out) :
    convert w t mode (some text) = .ok { stdout := line (String.ofList out) } := by
  rw [convert, h]
  rfl

theorem convert_operand_error {e : Transliterator.Error}
    (h : t.transliterate text.toList mode = .error e) : convert w t mode (some text) =
      .error (.failure 1 ("Error: " ++ (mode.name ++ " mode is not implemented"))) := by
  rw [convert, h, transliterate_error h]
  rfl

end Convert

/-! ## Invocations -/

namespace Invocation

theorem run_of_settings (h : InForce w.files i.settings? x) {r : Run Outcome}
    (hr : i.command.run w x = r) :
    i.run w = { ending r with stderr := i.notice ++ (ending r).stderr } := by
  rw [run_eq, plain_of_settings (loadSettings_of_inForce h), hr]

/-- What a command line comes to is what its command comes to, but for a notice. -/
theorem run_of_command {arguments : List String} (harguments : ofArguments? arguments = some i)
    (hsettings : InForce w.files i.settings? x) {r : Run Outcome}
    (hr : i.command.run w x = r) :
    (Tool.run w arguments).code = (ending r).code ∧
    (Tool.run w arguments).stdout = (ending r).stdout := by
  rw [run_of_arguments harguments, run_of_settings hsettings hr]
  exact ⟨rfl, rfl⟩

theorem ranked (w : World) (i : Invocation) : Ranked w i (i.run w) where
  settled := fault_or_inForce w.files i.settings?
  settings := by
    intro name message hname hfault
    rw [run_eq, plain_of_settings_error (by rw [hname]; exact loadSettings_of_fault hfault)]
    rfl
  mode := by
    intro x text? name grammar? hx hcommand hmode
    exact run_of_settings hx (hcommand ▸ Command.run_of_unknown_mode hmode)
  grammar := by
    intro x name e hx hgrammar hmode hload
    exact run_of_settings hx (Command.run_of_grammar_error hgrammar hmode hload)
  conversion := by
    intro x text mode? grammar? mode g hx hcommand hmode hload
    have hrun := Command.run_convert w (some text) hmode hload
    rw [← hcommand] at hrun
    constructor
    · intro out hout
      rw [run_of_settings hx (hrun.trans (convert_operand_ok hout))]
      show Outcome.mk _ _ (i.notice ++ "") = _
      rw [String.append_empty]
      rfl
    · intro e he
      exact run_of_settings hx (hrun.trans (convert_operand_error he))

/-- **Asking for a trace** puts a notice in front of the messages and changes nothing else. -/
theorem run_of_traced (hcommand : i'.command = i.command) (hsettings : i'.settings? = i.settings?)
    (htraces : i'.traces = true) :
    (i'.run w).code = (i.run w).code ∧ (i'.run w).stdout = (i.run w).stdout ∧
      (i.traces = false → (i'.run w).stderr = traceNotice ++ (i.run w).stderr) ∧
      (i.traces = true → (i'.run w).stderr = (i.run w).stderr) := by
  have hplain : i'.plain w = i.plain w := by
    rw [plain, plain, hcommand, hsettings]
  have hnotice : i'.notice = traceNotice := by rw [notice, if_pos htraces]
  rw [run_eq, run_eq, hplain, hnotice]
  refine ⟨rfl, rfl, ?_, ?_⟩
  · intro h
    have hnone : i.notice = "" := by
      rw [notice, h]
      rfl
    rw [hnone, String.empty_append]
  · intro h
    rw [notice, if_pos h]

end Invocation

/-- **The first fault prevails**, and which one comes first is the same for all command lines: the
file of settings, the mode, the grammar, and only then the text. Of a run that fails, nothing but
its message is seen. An option that asks for a trace can be put in front unless it is there. Put
anywhere where it is understood as such, it changes neither the exit status nor what is written, and
puts its notice in front of the messages, once. -/
theorem failure_precedence (w : World) (arguments : List String) (i : Invocation)
    (h : Invocation.ofArguments? arguments = some i) :
    Ranked w i (run w arguments) ∧
    (∀ extra, NewTraceOption i extra →
      ∃ i', Invocation.ofArguments? (extra ++ arguments) = some i') ∧
    ∀ before after extra i', arguments = before ++ after → "--" ∉ before → TraceOption extra →
      Invocation.ofArguments? (before ++ (extra ++ after)) = some i' →
      (run w (before ++ (extra ++ after))).code = (run w arguments).code ∧
      (run w (before ++ (extra ++ after))).stdout = (run w arguments).stdout ∧
      (i.traces = false →
        (run w (before ++ (extra ++ after))).stderr = traceNotice ++ (run w arguments).stderr) ∧
      (i.traces = true →
        (run w (before ++ (extra ++ after))).stderr = (run w arguments).stderr) := by
  rw [Invocation.run_of_arguments h]
  refine ⟨i.ranked w, fun extra hextra => Invocation.ofArguments?_newTraceOption hextra h, ?_⟩
  rintro before after extra i' rfl hbefore hextra h'
  obtain ⟨hcommand, hsettings, htraces⟩ := Invocation.ofArguments?_insert hextra hbefore h h'
  rw [Invocation.run_of_arguments h']
  exact Invocation.run_of_traced hcommand hsettings htraces

/-- A file of settings for a mode that has not been worked out. -/
def reversed : World where
  files := [("s.toml", Text.Utf8.encode
    "rules.exact_out_of_range = \"strict\"\nengine.default_mode = \"orva\"".toList)]

theorem reversed_inForce :
    InForce reversed.files (some "s.toml") ⟨.strict, "orva".toList, .reverse⟩ := by
  rw [inForce_some]
  refine ⟨"rules.exact_out_of_range = \"strict\"\nengine.default_mode = \"orva\"".toList, ?_, ?_⟩
  · decide +kernel
  · decide +kernel

/-- With these settings a text is refused where no mode is asked for, and refused in the same way,
behind a notice, where a trace is. -/
theorem reversed_failure_precedence :
    run reversed ["--settings", "s.toml", "convert", "k"] =
      ⟨1, "", line ("Error: " ++ ("orva" ++ " mode is not implemented"))⟩ ∧
    (run reversed ["--settings", "s.toml", "convert", "--trace-dir", "t", "k"]).stderr =
      traceNotice ++ line ("Error: " ++ ("orva" ++ " mode is not implemented")) := by
  have hplain : Invocation.ofArguments? ["--settings", "s.toml", "convert", "k"] =
      some { command := .convert (some "k") none none, settings? := some "s.toml" } := by
    decide +kernel
  have htraced : Invocation.ofArguments?
      ["--settings", "s.toml", "convert", "--trace-dir", "t", "k"] =
        some {
          command := .convert (some "k") none none
          settings? := some "s.toml"
          traceDir? := some "t" } := by
    decide +kernel
  obtain ⟨hranked, -, htrace⟩ := failure_precedence reversed _ _ hplain
  obtain ⟨g, hg⟩ := Session.exists_embedded
  have houtcome : run reversed ["--settings", "s.toml", "convert", "k"] =
      ⟨1, "", line ("Error: " ++ ("orva" ++ " mode is not implemented"))⟩ :=
    (hranked.conversion _ "k" none none .reverse g reversed_inForce rfl .ofSettings hg).2 _ rfl
  refine ⟨houtcome, ?_⟩
  obtain ⟨-, -, hnotice, -⟩ := htrace ["--settings", "s.toml", "convert"] ["k"]
    ["--trace-dir", "t"] _ rfl (by decide) (.traceDir "t") htraced
  rw [houtcome] at hnotice
  exact hnotice rfl

end Translit.Tool
