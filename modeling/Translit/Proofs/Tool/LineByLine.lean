import Translit.Proofs.Tool.Outcome
import Translit.Proofs.Tool.Precedence

/-!
# Standard input, line by line

* `convertLines_append`, `code_of_convertLines_error`, `isSome_of_convertLines_ok`: what lines come
  to, from what one line does;
* `ending_convert_texts`, `code_of_notText`, `stdout_of_notText`: what standard input comes to;
* `LineByLine`: what comes of standard input, and how it compares to operands;
* `line_by_line`: that comes of every conversion of standard input.
-/

namespace Translit.Tool

open Text.Utf8 (Bytes encode text?)

variable {w : World} {t : Transliterator} {mode : Mode} {o o' : Output}

/-! ## Modes -/

theorem transliterate_of_isImplemented (h : mode.isImplemented = true) (cs : List Char) :
    t.transliterate cs mode = .ok (t.convert cs) := by
  cases mode with
  | forward => rfl
  | reverse => cases h
  | banglish => cases h
  | lishbang => cases h

theorem transliterate_of_not_isImplemented (h : mode.isImplemented = false) (cs : List Char) :
    t.transliterate cs mode = .error (.notImplemented mode) := by
  cases mode with
  | forward => cases h
  | reverse => rfl
  | banglish => rfl
  | lishbang => rfl

/-! ## One line -/

section Line

variable {line : Bytes} {cs : List Char}

theorem convertLines_text (htext : text? line = some cs) (h : mode.isImplemented = true)
    (more : List Bytes) :
    convertLines t mode o (line :: more) = convertLines t mode (o.putLine (t.convert cs)) more := by
  rw [convertLines, Text.textOf, htext]
  show (Except.mapError _ (t.transliterate cs mode) >>= _) = _
  rw [transliterate_of_isImplemented h]
  rfl

theorem convertLines_refused (htext : text? line = some cs) (h : mode.isImplemented = false)
    (more : List Bytes) : convertLines t mode o (line :: more) = .error {
      code := 1
      stdout := String.ofList o.written
      stderr := "Error: " ++ (mode.name ++ " mode is not implemented") ++ "\n" } := by
  rw [convertLines, Text.textOf, htext]
  show (Except.mapError _ (t.transliterate cs mode) >>= _) = _
  rw [transliterate_of_not_isImplemented h]
  rfl

theorem convertLines_notText (htext : text? line = none) (more : List Bytes) :
    convertLines t mode o (line :: more) = .error {
      code := 1
      stdout := String.ofList o.written
      stderr := "Error reading stdin: " ++ "stream did not contain valid UTF-8" ++ "\n" } := by
  rw [convertLines, Text.textOf, htext]
  rfl

end Line

/-! ## All lines -/

/-- **Lines that are text** are converted, and the rest follows on them. -/
theorem convertLines_append (h : mode.isImplemented = true) {before : List Bytes}
    {texts : List (List Char)} (htexts : before.map text? = texts.map some) (more : List Bytes) :
    convertLines t mode o (before ++ more) =
      convertLines t mode (o.putLines (texts.map t.convert)) more := by
  induction before generalizing o texts with
  | nil =>
    cases texts with
    | nil => rfl
    | cons cs texts => cases htexts
  | cons line before ih =>
    cases texts with
    | nil => cases htexts
    | cons cs texts =>
      rw [List.map_cons, List.map_cons, List.cons_eq_cons] at htexts
      obtain ⟨hline, hbefore⟩ := htexts
      rw [List.cons_append, convertLines_text hline h, ih hbefore]
      rfl

/-- Lines that are not converted end the run in one way. -/
theorem code_of_convertLines_error {ls : List Bytes} {e : Outcome}
    (h : convertLines t mode o ls = .error e) : e.code = 1 := by
  induction ls generalizing o with
  | nil => cases h
  | cons line ls ih =>
    cases htext : text? line with
    | none =>
      rw [convertLines_notText htext] at h
      cases h
      rfl
    | some cs =>
      cases himplemented : mode.isImplemented with
      | true =>
        rw [convertLines_text htext himplemented] at h
        exact ih h
      | false =>
        rw [convertLines_refused htext himplemented] at h
        cases h
        rfl

/-- **All lines are text** where all of them are converted. -/
theorem isSome_of_convertLines_ok {ls : List Bytes} (h : convertLines t mode o ls = .ok o') :
    ∀ line ∈ ls, (text? line).isSome = true := by
  induction ls generalizing o with
  | nil =>
    intro line hline
    cases hline
  | cons first ls ih =>
    cases htext : text? first with
    | none =>
      rw [convertLines_notText htext] at h
      cases h
    | some cs =>
      cases himplemented : mode.isImplemented with
      | true =>
        rw [convertLines_text htext himplemented] at h
        rintro line (_ | ⟨_, hline⟩)
        · rw [htext]
          rfl
        · exact ih h line hline
      | false =>
        rw [convertLines_refused htext himplemented] at h
        cases h

/-- The first line decides where texts cannot be converted. -/
theorem convertLines_of_not_isImplemented (h : mode.isImplemented = false) {ls : List Bytes}
    (hne : ls ≠ []) : ∃ message, convertLines t mode o ls =
      .error { code := 1, stdout := String.ofList o.written, stderr := message } := by
  cases ls with
  | nil => exact absurd rfl hne
  | cons line ls =>
    cases htext : text? line with
    | none => exact ⟨_, convertLines_notText htext ls⟩
    | some cs => exact ⟨_, convertLines_refused htext h ls⟩

/-! ## Standard input -/

/-- Texts that can be lines: none holds a line feed or ends in a carriage return. -/
def AreLines (texts : List (List Char)) : Prop :=
  ∀ text ∈ texts, '\n' ∉ text ∧ text.getLast? ≠ some '\r'

theorem lines_of_areLines {texts : List (List Char)} {bytes : Bytes} (h : AreLines texts)
    (hlined : Lined (texts.map encode) bytes) : lines bytes = texts.map encode := by
  refine lines_of_lined hlined fun line hline => ?_
  obtain ⟨text, htext, rfl⟩ := List.mem_map.1 hline
  obtain ⟨hfeed, hreturn⟩ := h text htext
  constructor
  · intro hmem
    exact hfeed (Text.Utf8.mem_of_mem_encode (c := '\n') (by decide) hmem)
  · intro hlast
    exact hreturn (Text.Utf8.getLast?_of_getLast?_encode (c := '\r') (by decide) hlast)

section Input

open Invocation (ending)

theorem ending_convert_ok (h : convertLines t mode {} (lines w.stdin) = .ok o) :
    ending (convert w t mode none) = { stdout := String.ofList o.text } := by
  rw [convert, h]
  rfl

theorem ending_convert_error {e : Outcome} (h : convertLines t mode {} (lines w.stdin) = .error e) :
    ending (convert w t mode none) = e := by
  rw [convert, h]
  rfl

/-- **Lines are converted**, whatever their ends. -/
theorem ending_convert_texts (h : mode.isImplemented = true) {texts : List (List Char)}
    (htexts : AreLines texts) (hlined : Lined (texts.map encode) w.stdin) :
    ending (convert w t mode none) =
      { stdout := String.ofList (unlines (texts.map t.convert)) } := by
  have hdecoded : (texts.map encode).map text? = texts.map some := by
    rw [List.map_map]
    exact List.map_congr_left fun text _ => Text.Utf8.text?_encode text
  have hlines := convertLines_append (t := t) (o := {}) h hdecoded []
  rw [List.append_nil, ← lines_of_areLines htexts hlined] at hlines
  have htext := Output.Exact.text_putLines (o := {}) rfl (texts.map t.convert)
  rw [ending_convert_ok hlines, htext]
  rfl

theorem ending_convert_empty (h : w.stdin = []) : ending (convert w t mode none) = {} := by
  have hlines : convertLines t mode {} (lines w.stdin) = .ok {} := by
    rw [h]
    rfl
  exact ending_convert_ok hlines

theorem ending_convert_refused (h : mode.isImplemented = false) (hne : w.stdin ≠ []) :
    ∃ message, ending (convert w t mode none) = { code := 1, stdout := "", stderr := message } := by
  have hlines : lines w.stdin ≠ [] := fun h => hne (lines_eq_nil_iff.1 h)
  obtain ⟨message, herror⟩ := convertLines_of_not_isImplemented (t := t) (o := {}) h hlines
  exact ⟨message, ending_convert_error herror⟩

/-- **A line that is no text** is not passed over. -/
theorem code_of_notText {bad : Bytes} (hmem : bad ∈ lines w.stdin) (hbad : text? bad = none) :
    (ending (convert w t mode none)).code = 1 := by
  cases hlines : convertLines t mode {} (lines w.stdin) with
  | ok o =>
    have hsome := isSome_of_convertLines_ok hlines bad hmem
    rw [hbad] at hsome
    cases hsome
  | error e =>
    rw [ending_convert_error hlines]
    exact code_of_convertLines_error hlines

/-- **Nothing is written before it**, while all of it can be held back. -/
theorem stdout_of_notText {texts : List (List Char)} {before more : List Bytes} {bad : Bytes}
    (hlines : lines w.stdin = before ++ bad :: more) (htexts : before.map text? = texts.map some)
    (hbad : text? bad = none)
    (hsize : Output.size (unlines (texts.map t.convert)) < Output.capacity) :
    (ending (convert w t mode none)).stdout = "" := by
  cases h : mode.isImplemented with
  | true =>
    have hwritten := Output.written_putLines_of_lt (o := {}) (texts.map t.convert)
      (by rwa [Nat.zero_add])
    have herror := convertLines_append (t := t) (o := {}) h htexts (bad :: more)
    rw [convertLines_notText hbad, hwritten, ← hlines] at herror
    rw [ending_convert_error herror]
  | false =>
    have hne : w.stdin ≠ [] := by
      intro hempty
      rw [hempty] at hlines
      simp [lines, linesFrom] at hlines
    obtain ⟨message, hending⟩ := ending_convert_refused (t := t) h hne
    rw [hending]

end Input

/-! ## Runs -/

section Runs

open Invocation (ending)

variable {arguments : List String} {i : Invocation} {x : Settings} {g : Grammar}
  {mode? grammar? : Option String}

/-- A run that converts comes to what the conversion comes to. -/
theorem run_of_convert {text? : Option String}
    (harguments : Invocation.ofArguments? arguments = some i)
    (hcommand : i.command = .convert text? mode? grammar?)
    (hsettings : InForce w.files i.settings? x) (hmode : Chosen x mode? mode)
    (hgrammar : (Grammar.Source.choose grammar?).load w.files = .ok g) :
    (run w arguments).code = (ending (convert w (.ofGrammar g x.policy) mode text?)).code ∧
    (run w arguments).stdout = (ending (convert w (.ofGrammar g x.policy) mode text?)).stdout := by
  have hrun := Command.run_convert w text? hmode hgrammar
  rw [← hcommand] at hrun
  exact Invocation.run_of_command harguments hsettings hrun

/-- **A text behind two dashes** is converted instead of standard input. -/
theorem run_of_operand (harguments : Invocation.ofArguments? arguments = some i)
    (hdashes : "--" ∉ arguments) (hcommand : i.command = .convert none mode? grammar?)
    (hsettings : InForce w.files i.settings? x) (hmode : Chosen x mode? mode)
    (hgrammar : (Grammar.Source.choose grammar?).load w.files = .ok g)
    (h : mode.isImplemented = true) (text : List Char) :
    (run w (arguments ++ ["--", String.ofList text])).code = 0 ∧
    (run w (arguments ++ ["--", String.ofList text])).stdout =
      line (String.ofList ((Transliterator.ofGrammar g x.policy).convert text)) := by
  have hoperand :=
    Invocation.ofArguments?_append_operand harguments hdashes hcommand (String.ofList text)
  obtain ⟨hcode, hstdout⟩ := run_of_convert hoperand rfl hsettings hmode hgrammar
  rw [hcode, hstdout, convert_operand_ok (transliterate_of_isImplemented h _), String.toList_ofList]
  exact ⟨rfl, rfl⟩

end Runs

theorem join_lines (f : List Char → List Char) (texts : List (List Char)) :
    String.join (texts.map fun text => line (String.ofList (f text))) =
      String.ofList (unlines (texts.map f)) := by
  induction texts with
  | nil => rfl
  | cons text texts ih =>
    rw [List.map_cons, List.map_cons, String.join_cons, ih, unlines_cons, String.ofList_append,
      String.ofList_append]
    rfl

/-- What comes of standard input where no operand is given. -/
structure LineByLine (w : World) (arguments : List String) (t : Transliterator) (mode : Mode) :
    Prop where
  /-- Every input is in lines. -/
  lined : Lined (lines w.stdin) w.stdin ∧ ∀ line ∈ lines w.stdin, lineFeed ∉ line
  /-- In a mode that has been worked out, each line is converted, whatever its end, and a line feed
  put behind it. This is what is written when the lines are operands instead, one run for each, of
  runs with the same files. -/
  converted : mode.isImplemented = true → ∀ texts : List (List Char), AreLines texts →
    Lined (texts.map encode) w.stdin →
    (run w arguments).code = 0 ∧
    (run w arguments).stdout = String.ofList (unlines (texts.map t.convert)) ∧
    ("--" ∉ arguments → ∀ w' : World, w'.files = w.files →
      (∀ text ∈ texts, (run w' (arguments ++ ["--", String.ofList text])).code = 0) ∧
      (run w arguments).stdout = String.join (texts.map fun text =>
        (run w' (arguments ++ ["--", String.ofList text])).stdout))
  /-- In another mode the run fails and writes nothing, but for an input that is empty. -/
  refused : mode.isImplemented = false →
    ((run w arguments).code = 1 ∧ (run w arguments).stdout = "" ↔ w.stdin ≠ []) ∧
    (w.stdin = [] → (run w arguments).code = 0 ∧ (run w arguments).stdout = "")
  /-- A run fails over a line that is no text. -/
  failed : (∃ line ∈ lines w.stdin, text? line = none) → (run w arguments).code = 1
  /-- It writes nothing of the lines before it, while they are few. -/
  allOrNone : ∀ (before more : List Bytes) (bad : Bytes) (texts : List (List Char)),
    lines w.stdin = before ++ bad :: more →
    before.map text? = texts.map some → text? bad = none →
    Output.size (unlines (texts.map t.convert)) < Output.capacity → (run w arguments).stdout = ""

/-- **Standard input is converted line by line**, as operands are, and all of it or nothing; where
there are settings and a grammar, and a mode is chosen. -/
theorem line_by_line (w : World) (arguments : List String) (i : Invocation)
    (mode? grammar? : Option String) (x : Settings) (mode : Mode) (g : Grammar)
    (harguments : Invocation.ofArguments? arguments = some i)
    (hcommand : i.command = .convert none mode? grammar?)
    (hsettings : InForce w.files i.settings? x) (hmode : Chosen x mode? mode)
    (hgrammar : (Grammar.Source.choose grammar?).load w.files = .ok g) :
    LineByLine w arguments (.ofGrammar g x.policy) mode := by
  obtain ⟨hcode, hstdout⟩ := run_of_convert harguments hcommand hsettings hmode hgrammar
  constructor
  case lined =>
    exact ⟨lined_lines _, fun line hline => not_mem_of_mem_linesFrom List.not_mem_nil hline⟩
  case converted =>
    intro himplemented texts htexts hlined
    rw [ending_convert_texts himplemented htexts hlined] at hcode hstdout
    refine ⟨hcode, hstdout, ?_⟩
    intro hdashes w' hfiles
    rw [← hfiles] at hsettings hgrammar
    have hoperand :=
      run_of_operand harguments hdashes hcommand hsettings hmode hgrammar himplemented
    refine ⟨fun text _ => (hoperand text).1, ?_⟩
    rw [hstdout, ← join_lines]
    exact congrArg String.join (List.map_congr_left fun text _ => (hoperand text).2.symm)
  case refused =>
    intro hrefused
    by_cases hempty : w.stdin = []
    · rw [ending_convert_empty hempty] at hcode hstdout
      simp [hcode, hstdout, hempty]
    · obtain ⟨message, hending⟩ :=
        ending_convert_refused (t := .ofGrammar g x.policy) hrefused hempty
      rw [hending] at hcode hstdout
      simp [hcode, hstdout, hempty]
  case failed =>
    rintro ⟨bad, hmem, hbad⟩
    rw [hcode]
    exact code_of_notText hmem hbad
  case allOrNone =>
    intro before more bad texts hlines htexts hbad hsize
    rw [hstdout]
    exact stdout_of_notText hlines htexts hbad hsize

/-- A grammar in which a letter is written differently behind a vowel. -/
def positional : Grammar where
  vowels := .ofText "a".toList
  consonants := .ofText "k".toList
  caseSensitive := .ofText "".toList
  patterns := [⟨"k".toList, "K".toList, some [⟨[⟨.before, some .vowel, false⟩], "x".toList⟩]⟩]
  disjoint := LetterClass.common?_eq_none_iff.1 (by decide)

/-- A file with this grammar, and three lines: the first two with different ends and the third
without one. -/
def mixedEnds : World where
  files := [("g.json", encode r#"["a","k","",[["k","K",[[[["prefix","vowel"]],"x"]]]]]"#.toList)]
  stdin := encode "ka\r\n\nak".toList

/-- Each of the lines is converted, and the same comes of them as operands. -/
theorem mixedEnds_line_by_line :
    (run mixedEnds ["convert", "--mode", "avro", "--grammar", "g.json"]).code = 0 ∧
    (run mixedEnds ["convert", "--mode", "avro", "--grammar", "g.json"]).stdout = "Ka\n\nax\n" ∧
    (run mixedEnds ["convert", "--mode", "avro", "--grammar", "g.json"]).stdout =
      String.join (["ka".toList, [], "ak".toList].map fun text =>
        (run mixedEnds (["convert", "--mode", "avro", "--grammar", "g.json"] ++
          ["--", String.ofList text])).stdout) := by
  have harguments : Invocation.ofArguments? ["convert", "--mode", "avro", "--grammar", "g.json"] =
      some { command := .convert none (some "avro") (some "g.json") } := by
    decide +kernel
  obtain ⟨x, hx⟩ := Session.exists_parse_defaultDocument
  have hmode : Chosen x (some "avro") .forward := .given (by decide +kernel)
  have hgrammar :
      (Grammar.Source.choose (some "g.json")).load mixedEnds.files = .ok positional := by
    decide +kernel
  have hlined : Lined (["ka".toList, [], "ak".toList].map encode) mixedEnds.stdin :=
    .returnFeed (encode "ka".toList) (.feed [] (.unended (by decide)))
  have hline := line_by_line mixedEnds _ _ _ _ x .forward positional harguments rfl
    (inForce_none.2 hx) hmode hgrammar
  obtain ⟨hcode, hstdout, hoperands⟩ := hline.converted rfl _
    (by simp [AreLines]) hlined
  have hconverted : ∀ policy, unlines (["ka".toList, [], "ak".toList].map
      (Transliterator.ofGrammar positional policy).convert) = "Ka\n\nax\n".toList := by
    intro policy
    cases policy <;> decide +kernel
  refine ⟨hcode, ?_, (hoperands (by decide) mixedEnds rfl).2⟩
  rw [hstdout, hconverted]
  rfl

end Translit.Tool
