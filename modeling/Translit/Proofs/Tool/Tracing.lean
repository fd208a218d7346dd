import Translit.Proofs.Tool.Invocation

/-!
# Asking for a trace

An option that asks for a trace may stand wherever the next option may. It changes nothing else
that the arguments spell.

* `TraceOption`: the ways to ask for a trace;
* `Spec.readFrom?_insert`: the words read with such an option among them;
* `Invocation.ofArguments?_insert`: the invocation that is spelled with it;
* `NewTraceOption`, `Invocation.ofArguments?_newTraceOption`: an option that is not given yet may
  always stand first.
-/

namespace Translit.Tool

/-- The words by which a trace is asked for. -/
inductive TraceOption : List String → Prop
  | trace : TraceOption ["--trace"]
  | traceDir (dir : String) : TraceOption ["--trace-dir", dir]
  | attached (dir : String) : TraceOption ["--trace-dir=" ++ dir]

/-- The words by which a trace is asked for that is not yet asked for in this way. -/
inductive NewTraceOption (i : Invocation) : List String → Prop
  | trace (new : i.trace = false) : NewTraceOption i ["--trace"]
  | traceDir {dir : String} (isValue : Spec.isValue dir = true) (new : i.traceDir? = none) :
      NewTraceOption i ["--trace-dir", dir]
  | attached (dir : String) (new : i.traceDir? = none) : NewTraceOption i ["--trace-dir=" ++ dir]

/-- The names of the options that ask for a trace. -/
def tracingNames : List String := ["trace", "trace-dir"]

/-- A trace is asked for. -/
def Options.traces (o : Options) : Bool := o.flag "trace" || (o.value? "trace-dir").isSome

/-- A trace is asked for. -/
def Invocation.traces (i : Invocation) : Bool := i.trace || i.traceDir?.isSome

/-- The options that ask for a trace are known as such. -/
structure Spec.KnowsTracing (s : Spec) : Prop where
  trace : "trace" ∈ s.flags
  traceDir : "trace-dir" ∈ s.valued
  trace_not_valued : "trace" ∉ s.valued

theorem knowsTracing_sharedSpec : sharedSpec.KnowsTracing := by
  constructor <;> decide

theorem knowsTracing_withShared {name : String} {spec : Spec} (h : commandSpec? name = some spec) :
    spec.withShared.KnowsTracing := by
  rw [commandSpec?.eq_def] at h
  split at h
  all_goals cases h
  all_goals constructor <;> decide

theorem Options.Within.traces {o r : Options} (h : o.Within r) (ho : o.traces = true) :
    r.traces = true := by
  unfold Options.traces at ho ⊢
  rw [Bool.or_eq_true] at ho ⊢
  exact ho.imp (h.flag "trace") (h.value? "trace-dir")

namespace Spec

variable {s : Spec} {o r r' : Options} {lacks? : Option String}
  {extra words before after rest rest' : List String}

/-! ## The option by itself -/

theorem role_trace (hs : s.KnowsTracing) : s.role none "--trace" = .part (.flag "trace") := by
  have hword : Word.ofString "--trace" = .long "trace" none := by decide
  simp [role, hword, valued?, flag?, hs.trace, hs.trace_not_valued]

theorem role_traceDir (hs : s.KnowsTracing) :
    s.role none "--trace-dir" = .part (.option "trace-dir") := by
  have hword : Word.ofString "--trace-dir" = .long "trace-dir" none := by decide
  simp [role, hword, valued?, hs.traceDir]

theorem ofString_attached (dir : String) :
    Word.ofString ("--trace-dir=" ++ dir) = .long "trace-dir" (some dir) := by
  have hlist : ("--trace-dir=" ++ dir).toList =
      '-' :: '-' :: ("trace-dir".toList ++ '=' :: dir.toList) := by
    rw [String.toList_append]
    rfl
  unfold Word.ofString
  rw [hlist]
  simp

theorem role_attached (hs : s.KnowsTracing) (dir : String) :
    s.role none ("--trace-dir=" ++ dir) = .part (.value "trace-dir" dir) := by
  simp [role, ofString_attached, valued?, hs.traceDir]

/-- No option takes a word that asks for a trace as its value. -/
theorem readFrom?_traceOption_eq_none (hextra : TraceOption extra) (name : String) :
    s.readFrom? o (some name) (extra ++ words) = none := by
  have hvalue : ∀ word more, Word.ofString word ≠ .operand →
      s.readFrom? o (some name) (word :: more) = none := by
    intro word more hword
    have hno : isValue word = false := by
      unfold isValue
      simpa using hword
    rw [readFrom?_cons, role, hno]
    rfl
  cases hextra with
  | trace => exact hvalue _ _ (by decide)
  | traceDir dir => exact hvalue _ _ (by decide)
  | attached dir => exact hvalue _ _ (by simp [ofString_attached])

/-- Where a word that asks for a trace can be read, it does that and nothing else. -/
theorem readFrom?_traceOption (hs : s.KnowsTracing) (hextra : TraceOption extra)
    (h : s.readFrom? o none (extra ++ words) = some (r, rest)) :
    ∃ o', o.SameBut tracingNames o' ∧ o'.traces = true ∧
      s.readFrom? o' none words = some (r, rest) := by
  have hvalue : ∀ {dir o'}, o.addValue? "trace-dir" dir = some o' →
      o.SameBut tracingNames o' ∧ o'.traces = true := by
    intro dir o' hadd
    refine ⟨.of_addValue? (by decide) hadd, ?_⟩
    unfold Options.traces
    rw [Options.value?_of_addValue? hadd]
    simp
  cases hextra with
  | trace =>
    rw [List.singleton_append, readFrom?_cons, role_trace hs] at h
    simp only [Options.add?, Option.bind_map, Option.bind_eq_some_iff] at h
    obtain ⟨o', hadd, h⟩ := h
    refine ⟨o', .of_addFlag? (by decide) hadd, ?_, h⟩
    unfold Options.traces
    rw [Options.flag_of_addFlag? hadd]
    simp
  | traceDir dir =>
    rw [List.cons_append, List.singleton_append, readFrom?_cons, role_traceDir hs] at h
    simp only [Options.add?, Option.bind_some, readFrom?_cons, role] at h
    by_cases hdir : isValue dir
    · simp only [hdir, if_true, Option.bind_map, Option.bind_eq_some_iff] at h
      obtain ⟨o', hadd, h⟩ := h
      exact ⟨o', (hvalue hadd).1, (hvalue hadd).2, h⟩
    · simp [hdir] at h
  | attached dir =>
    rw [List.singleton_append, readFrom?_cons, role_attached hs] at h
    simp only [Options.add?, Option.bind_map, Option.bind_eq_some_iff] at h
    obtain ⟨o', hadd, h⟩ := h
    exact ⟨o', (hvalue hadd).1, (hvalue hadd).2, h⟩

/-! ## The option among other words -/

/-- **A trace asked for between the words.** Either the words are not read so far, or what is read
differs only in that. -/
theorem readFrom?_insert (hs : s.KnowsTracing) (hextra : TraceOption extra)
    (hbefore : "--" ∉ before) (h : s.readFrom? o lacks? (before ++ after) = some (r, rest))
    (h' : s.readFrom? o lacks? (before ++ (extra ++ after)) = some (r', rest')) :
    (∃ word more, r' = r ∧ rest = word :: (more ++ after) ∧
      rest' = word :: (more ++ (extra ++ after)) ∧ "--" ∉ more) ∨
    (r.SameBut tracingNames r' ∧ r'.traces = true ∧ rest' = rest) := by
  induction before generalizing o lacks? with
  | nil =>
    rw [List.nil_append] at h h'
    cases lacks? with
    | some name =>
      rw [readFrom?_traceOption_eq_none hextra] at h'
      cases h'
    | none =>
      obtain ⟨o', hsame, htraces, h'⟩ := readFrom?_traceOption hs hextra h'
      obtain ⟨hsame, hrest⟩ := readFrom?_sameBut hsame h h'
      exact .inr ⟨hsame, (within_of_readFrom? h').traces htraces, hrest⟩
  | cons word before ih =>
    obtain ⟨hword, hbefore⟩ : "--" ≠ word ∧ "--" ∉ before := by simpa using hbefore
    rw [List.cons_append, readFrom?_cons] at h h'
    cases hrole : s.role lacks? word with
    | stop =>
      simp only [hrole, Option.some.injEq, Prod.mk.injEq] at h h'
      obtain ⟨rfl, rfl⟩ := h
      obtain ⟨rfl, rfl⟩ := h'
      exact .inl ⟨word, before, rfl, rfl, rfl, hbefore⟩
    | dashes => exact absurd (eq_of_role_eq_dashes hrole).symm hword
    | part p =>
      simp only [hrole, Option.bind_eq_some_iff] at h h'
      obtain ⟨next, hnext, h⟩ := h
      obtain ⟨next', hnext', h'⟩ := h'
      rw [hnext] at hnext'
      cases hnext'
      exact ih hbefore h h'

end Spec

/-! ## The invocation -/

theorem Command.ofOptions?_sameBut {o o' : Options} (h : o.SameBut tracingNames o')
    (name : String) : Command.ofOptions? name o' = Command.ofOptions? name o := by
  have hmode := h.value? "mode" (by decide)
  have hgrammar := h.value? "grammar" (by decide)
  have hcategory := h.value? "category" (by decide)
  have hjson := h.flag "json" (by decide)
  have hverbose := h.flag "verbose" (by decide)
  simp only [Command.ofOptions?.eq_def, h.operands, hmode, hgrammar, hcategory, hjson, hverbose]

namespace Invocation

variable {i i' : Invocation} {arguments extra before after : List String} {name : String}
  {front back : Options} {spec : Spec} {words : List String}

theorem Spelled.traces (h : Spelled arguments i front back name spec words) :
    i.traces = (back.traces || front.traces) := by
  unfold Invocation.traces Options.traces
  rw [h.trace, h.traceDir?]
  cases back.flag "trace" <;> cases front.flag "trace" <;> cases back.value? "trace-dir" <;>
    cases front.value? "trace-dir" <;> rfl

/-- **A trace asked for among the arguments**, before any two dashes, changes neither the command
nor where the settings come from. -/
theorem ofArguments?_insert (hextra : TraceOption extra) (hbefore : "--" ∉ before)
    (h : ofArguments? (before ++ after) = some i)
    (h' : ofArguments? (before ++ (extra ++ after)) = some i') :
    i'.command = i.command ∧ i'.settings? = i.settings? ∧ i'.traces = true := by
  obtain ⟨front, back, name, spec, words, h⟩ := ofArguments?_eq_some.1 h
  obtain ⟨front', back', name', spec', words', h'⟩ := ofArguments?_eq_some.1 h'
  have htraces := h'.traces
  rcases Spec.readFrom?_insert knowsTracing_sharedSpec hextra hbefore h.readFront h'.readFront with
    ⟨word, more, rfl, hrest, hrest', hmore⟩ | ⟨hsame, hfront, hrest⟩
  · -- behind the name of the command
    obtain ⟨rfl, rfl⟩ : name = word ∧ words = more ++ after := by simpa using hrest
    obtain ⟨rfl, rfl⟩ : name' = name ∧ words' = more ++ (extra ++ after) := by simpa using hrest'
    have hspec : spec' = spec := Option.some.inj (h'.known.symm.trans h.known)
    subst hspec
    rcases Spec.readFrom?_insert (knowsTracing_withShared h.known) hextra hmore h.readBack
        h'.readBack with ⟨word, more, -, hleft, -⟩ | ⟨hsame, hback, -⟩
    · cases hleft
    · refine ⟨?_, ?_, ?_⟩
      · have hcommand := h'.command
        rw [Command.ofOptions?_sameBut hsame, h.command] at hcommand
        exact (Option.some.inj hcommand).symm
      · rw [h'.settings?, h.settings?, hsame.value? "settings" (by decide)]
      · rw [htraces, hback, Bool.true_or]
  · -- in front of it
    obtain ⟨rfl, rfl⟩ : name' = name ∧ words' = words := by simpa using hrest
    have hspec : spec' = spec := Option.some.inj (h'.known.symm.trans h.known)
    subst hspec
    have hback : back' = back := by
      have hread := h'.readBack
      rw [h.readBack] at hread
      simpa using hread.symm
    subst hback
    refine ⟨?_, ?_, ?_⟩
    · exact Option.some.inj (h'.command.symm.trans h.command)
    · rw [h'.settings?, h.settings?, hsame.value? "settings" (by decide)]
    · rw [htraces, hfront, Bool.or_true]

/-! ### The option in front -/

theorem Spelled.newTraceOption (h : Spelled arguments i front back name spec words)
    (hextra : NewTraceOption i extra) : ∃ o,
      (∀ more, sharedSpec.readFrom? {} none (extra ++ more) = sharedSpec.readFrom? o none more) ∧
      Options.SameBut tracingNames {} o ∧ Options.Spares {} o front := by
  have hdir : ∀ dir, i.traceDir? = none →
      Options.Spares {} ⟨[("trace-dir", dir)], [], []⟩ front := by
    intro dir hnew
    have hadd : Options.addValue? {} "trace-dir" dir = some ⟨[("trace-dir", dir)], [], []⟩ := rfl
    rw [h.traceDir?, Option.orElse_eq_orElse, Option.orElse_eq_or, Option.or_eq_none_iff] at hnew
    constructor
    · intro other hother
      cases hother
    · intro other hother
      rw [Options.value?_of_addValue? hadd] at hother
      split at hother
      · next hname =>
        rw [hname]
        exact .inr hnew.2
      · cases hother
  cases hextra with
  | trace new =>
    refine ⟨⟨[], ["trace"], []⟩, ?_, .of_addFlag? (by decide) rfl, ?_, ?_⟩
    · intro more
      rw [List.singleton_append, Spec.readFrom?_cons, Spec.role_trace knowsTracing_sharedSpec]
      rfl
    · intro other hother
      have hname : other = "trace" := by simpa [Options.flag] using hother
      rw [h.trace, Bool.or_eq_false_iff] at new
      rw [hname]
      exact .inr new.2
    · intro other hother
      cases hother
  | @traceDir dir isValue new =>
    refine ⟨⟨[("trace-dir", dir)], [], []⟩, ?_, .of_addValue? (by decide) rfl, hdir dir new⟩
    intro more
    rw [List.cons_append, List.singleton_append, Spec.readFrom?_cons,
      Spec.role_traceDir knowsTracing_sharedSpec]
    simp only [Options.add?, Option.bind_some, Spec.readFrom?_cons, Spec.role, isValue, if_true]
    rfl
  | attached dir new =>
    refine ⟨⟨[("trace-dir", dir)], [], []⟩, ?_, .of_addValue? (by decide) rfl, hdir dir new⟩
    intro more
    rw [List.singleton_append, Spec.readFrom?_cons, Spec.role_attached knowsTracing_sharedSpec]
    rfl

/-- **A trace that is not asked for yet** can be asked for in front of the arguments. -/
theorem ofArguments?_newTraceOption (hextra : NewTraceOption i extra)
    (h : ofArguments? arguments = some i) : ∃ i', ofArguments? (extra ++ arguments) = some i' := by
  obtain ⟨front, back, name, spec, words, h⟩ := ofArguments?_eq_some.1 h
  obtain ⟨o, hread, hsame, hspares⟩ := h.newTraceOption hextra
  obtain ⟨front', hfront⟩ := Spec.readFrom?_of_spares hspares h.readFront
  obtain ⟨hsame, -⟩ := Spec.readFrom?_sameBut hsame h.readFront hfront
  have hoperands : front'.operands.length ≤ sharedSpec.operands := by
    rw [hsame.operands]
    exact h.frontOperands
  let i' : Invocation := {
    command := i.command
    settings? := back.value? "settings" <|> front'.value? "settings"
    trace := back.flag "trace" || front'.flag "trace"
    traceDir? := back.value? "trace-dir" <|> front'.value? "trace-dir" }
  refine ⟨i', ofArguments?_eq_some.2 ⟨front', back, name, spec, words, ?_⟩⟩
  exact ⟨(hread arguments).trans hfront, hoperands, h.known, h.readBack, h.backOperands, h.command,
    rfl, rfl, rfl⟩

end Invocation

end Translit.Tool
