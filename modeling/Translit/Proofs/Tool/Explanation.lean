import Translit.Proofs.Json.Numbers
import Translit.Proofs.Tool.LineByLine

/-!
# Reading an explanation back

The document that explains a conversion tells of its steps one by one, and nothing of them is lost:
whatever characters they hold, they are read back as they were.

* `IsOptional`, `Segment.ToldBy`, `Tells`: a field that may be `null`, the object that tells of a
  step, and a document that tells of steps;
* `Segment.ofJson?`, `readExplanation?`: the steps that a document tells of;
* `writes_segment`, `tells_explanationDocument`: what is printed tells of the steps;
* `recovers_segment`, `Tells.read`: and they are read in whatever tells of them;
* `run_of_explain`: the command that prints a document;
* `explanation_read_back`: all this for every list of steps and every conversion.
-/

namespace Translit

open Json
open Text.Utf8 (encode)

/-! ## Documents that tell of steps -/

/-- The value holds an optional content: it is `null` exactly if there is none. -/
structure IsOptional {α : Type} (R : α → Value → Prop) (x? : Option α) (v : Value) : Prop where
  null_iff : v = .null ↔ x? = none
  held : ∀ x ∈ x?, R x v

/-- The value tells of the step: an object with its six fields. -/
inductive Segment.ToldBy (s : Segment) : Value → Prop
  | object {start stop source output pattern rule : Value} (hstart : IsNat s.start start)
      (hstop : IsNat s.stop stop) (hsource : IsText s.source source)
      (houtput : IsText s.output output) (hpattern : IsOptional IsText s.pattern? pattern)
      (hrule : IsOptional IsNat s.rule? rule) :
      ToldBy s (.object [
        (some "start".toList, start), (some "end".toList, stop),
        (some "source".toList, source), (some "output".toList, output),
        (some "pattern".toList, pattern), (some "rule".toList, rule)])

/-- The names of the fields of a step. -/
def Segment.fieldNames : List (List Char) := [
  "start".toList, "end".toList, "source".toList, "output".toList, "pattern".toList, "rule".toList]

/-- The step that an object tells of. -/
def Segment.ofJson? (v : Value) : Option Segment := do
  match ← v.record? fieldNames with
  | [start, stop, source, output, pattern, rule] =>
    some ⟨← start >>= Value.nat?, ← stop >>= Value.nat?, ← source >>= Value.text?,
      ← output >>= Value.text?, ← Value.optional? Value.text? pattern,
      ← Value.optional? Value.nat? rule⟩
  | _ => none

section Fields

variable {α : Type} {R : α → Value → Prop} {make : α → Value} {x? : Option α} {v : Value}

theorem IsOptional.field (h : IsOptional R x? v) : OptionalField R x? (some v) := by
  cases x? with
  | none =>
    rw [h.null_iff.2 rfl]
    exact .null
  | some x => exact .held (h.held x rfl)

/-- What is never written as `null` can be left out. -/
theorem writes_optional (h : Writes make R) (hnull : ∀ x, make x ≠ .null) :
    Writes (optionalValue make) (IsOptional R) := by
  intro x?
  refine ⟨⟨?_, ?_⟩, (h.optional x?).2⟩
  · cases x? with
    | none => exact iff_of_true rfl rfl
    | some x => exact iff_of_false (hnull x) nofun
  · rintro x rfl
    exact (h x).1

end Fields

/-- A step is read in whatever tells of it. -/
theorem recovers_segment : Recovers Segment.ofJson? Segment.ToldBy := by
  rintro s v (@⟨start, stop, source, output, pattern, rule, hstart, hstop, hsource, houtput,
    hpattern, hrule⟩)
  have hgives : Value.Gives Segment.fieldNames
      ([start, stop, source, output, pattern, rule].map some) _ := .inOrder rfl
  have hfields := Value.record?_of_gives (by decide) rfl hgives
  have hstart := Value.recovers_nat? _ _ hstart
  have hstop := Value.recovers_nat? _ _ hstop
  have hsource := Value.recovers_text? _ _ hsource
  have houtput := Value.recovers_text? _ _ houtput
  have hpattern := Value.optional?_of_recovers Value.recovers_text? rfl hpattern.field
  have hrule := Value.optional?_of_recovers Value.recovers_nat? rfl hrule.field
  refine (congrArg (· >>= _) hfields).trans ?_
  simp only [List.map_cons, List.map_nil, Option.bind_eq_bind, Option.bind_some, hstart, hstop,
    hsource, houtput, hpattern, hrule]

namespace Tool

/-- Every step can be written, as it is printed. -/
theorem writes_segment : Writes segmentValue Segment.ToldBy := by
  intro s
  obtain ⟨hpattern, hpatternNumeric⟩ := writes_optional writes_text nofun s.pattern?
  obtain ⟨hrule, hruleNumeric⟩ := writes_optional writes_nat nofun s.rule?
  refine ⟨.object (nat?_nat s.start) (nat?_nat s.stop) rfl rfl hpattern hrule, numeric_object ?_⟩
  simp only [List.forall_mem_cons, List.not_mem_nil, false_imp_iff, implies_true, and_true]
  exact ⟨(writes_nat s.start).2, (writes_nat s.stop).2, (writes_text s.source).2,
    (writes_text s.output).2, hpatternNumeric, hruleNumeric⟩

/-- The output tells of the steps: it is one document and the end of a line, and the document is an
array that tells of each step in order. -/
def Tells (segments : List Segment) (output : String) : Prop :=
  ∃ v cs, output.toList = cs ++ ['\n'] ∧ v.Written cs ∧ IsArray Segment.ToldBy segments v

/-- The steps that an output tells of. -/
def readExplanation? (output : String) : Option (List Segment) :=
  Value.ofBytes? (encode output.toList) >>= Value.elements? Segment.ofJson?

variable {w : World} {arguments : List String} {i : Invocation} {x : Settings} {g : Grammar}
  {text : String} {grammar? : Option String} {segments : List Segment} {output : String}

theorem tells_explanationDocument (segments : List Segment) :
    Tells segments (explanationDocument segments) := by
  obtain ⟨harray, hnumeric⟩ := writes_segment.array segments
  refine ⟨_, _, ?_, written_print hnumeric, harray⟩
  rw [explanationDocument, line, String.toList_append, String.toList_ofList]
  rfl

/-- The steps are read in every output that tells of them. -/
theorem Tells.read (h : Tells segments output) : readExplanation? output = some segments := by
  obtain ⟨v, cs, houtput, hwritten, harray⟩ := h
  have hread : Value.ofBytes? (encode (cs ++ ['\n'])) = some v :=
    ofBytes?_of_written hwritten.feed
  rw [readExplanation?, houtput, hread]
  exact Value.recovers_elements? recovers_segment _ _ harray

/-- **The command** prints the document of a conversion. -/
theorem run_of_explain (harguments : Invocation.ofArguments? arguments = some i)
    (hcommand : i.command = .explain text grammar? true) (hsettings : InForce w.files i.settings? x)
    (hgrammar : (Grammar.Source.choose grammar?).load w.files = .ok g) :
    (run w arguments).code = 0 ∧ (run w arguments).stdout =
      explanationDocument ((Transliterator.ofGrammar g x.policy).explain text.toList) := by
  have hrun : i.command.run w x = .ok {
      stdout := explanationDocument
        ((Transliterator.ofGrammar g x.policy).explain text.toList) } := by
    simp only [hcommand, Command.run, openEngine_ok hgrammar, Run.ok_bind]
    rfl
  exact Invocation.run_of_command harguments hsettings hrun

/-- **An explanation loses nothing.** The document of any steps is one JSON document and the end of
a line. It tells of the steps in their order, each by an object with the six fields in which exactly
a pattern and a rule that are not there are `null`. From whatever tells of steps they are read back.
The command for it prints the document of the conversion. -/
theorem explanation_read_back :
    (∀ segments, Tells segments (explanationDocument segments)) ∧
    (∀ segments output, Tells segments output → readExplanation? output = some segments) ∧
    ∀ (w : World) (arguments : List String) (i : Invocation) (text : String)
      (grammar? : Option String) (x : Settings) (g : Grammar),
      Invocation.ofArguments? arguments = some i →
      i.command = .explain text grammar? true →
      InForce w.files i.settings? x →
      (Grammar.Source.choose grammar?).load w.files = .ok g →
      (run w arguments).code = 0 ∧
      Tells ((Transliterator.ofGrammar g x.policy).explain text.toList) (run w arguments).stdout ∧
      readExplanation? (run w arguments).stdout =
        some ((Transliterator.ofGrammar g x.policy).explain text.toList) := by
  refine ⟨tells_explanationDocument, fun _ _ => Tells.read, ?_⟩
  intro w arguments i text grammar? x g harguments hcommand hsettings hgrammar
  obtain ⟨hcode, hstdout⟩ := run_of_explain harguments hcommand hsettings hgrammar
  have htells := tells_explanationDocument
    ((Transliterator.ofGrammar g x.policy).explain text.toList)
  rw [← hstdout] at htells
  exact ⟨hcode, htells, htells.read⟩

/-- A text with a quote, a backslash, a control and a character beyond the first plane. -/
def awkward : String := "ak\"\\\x1b😀k"

/-- Each of these characters is read back, in a step without a pattern. -/
theorem awkward_explanation_read_back :
    readExplanation? (run mixedEnds ["explain", "--json", "--grammar", "g.json", awkward]).stdout =
      some [
        { start := 0, stop := 1, source := ['a'], output := ['a'] },
        { start := 1, stop := 2, source := ['k'], output := ['x'], pattern? := some ['k'],
          rule? := some 0 },
        { start := 2, stop := 3, source := ['"'], output := ['"'] },
        { start := 3, stop := 4, source := ['\\'], output := ['\\'] },
        { start := 4, stop := 5, source := ['\x1b'], output := ['\x1b'] },
        { start := 5, stop := 6, source := ['😀'], output := ['😀'] },
        { start := 6, stop := 7, source := ['k'], output := ['K'], pattern? := some ['k'] }] := by
  obtain ⟨-, hread, hcommand⟩ := explanation_read_back
  obtain ⟨x, hx⟩ := Session.exists_parse_defaultDocument
  have harguments : Invocation.ofArguments? ["explain", "--json", "--grammar", "g.json", awkward] =
      some { command := .explain awkward (some "g.json") true } := by
    decide +kernel
  have hgrammar :
      (Grammar.Source.choose (some "g.json")).load mixedEnds.files = .ok positional := by
    decide +kernel
  obtain ⟨-, htells, -⟩ := hcommand mixedEnds _ _ awkward _ x positional harguments rfl
    (inForce_none.2 hx) hgrammar
  rw [hread _ _ htells]
  cases x.policy <;> decide +kernel

end Tool

end Translit
