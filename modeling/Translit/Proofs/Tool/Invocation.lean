import Translit.Proofs.Tool.Options

/-!
# What the arguments spell

* `Invocation.Spelled`, `Invocation.ofArguments?_eq_some`: the options in front of the name of a
  command and those behind it, and the invocation that they come to;
* `Invocation.ofArguments?_append_operand`: an operand added to a conversion of standard input.
-/

namespace Translit.Tool

namespace Spec

variable {s : Spec} {o r : Options} {lacks? : Option String} {words rest : List String}

/-- What is left over are the last words. -/
theorem suffix_of_readFrom? (h : s.readFrom? o lacks? words = some (r, rest)) : rest <:+ words := by
  induction words generalizing o lacks? with
  | nil =>
    obtain ⟨-, -, rfl⟩ := readFrom?_nil.1 h
    exact List.suffix_refl []
  | cons word words ih =>
    rw [readFrom?_cons] at h
    cases hrole : s.role lacks? word with
    | stop =>
      simp only [hrole, Option.some.injEq, Prod.mk.injEq] at h
      obtain ⟨-, rfl⟩ := h
      exact List.suffix_refl _
    | dashes =>
      simp only [hrole, Option.some.injEq, Prod.mk.injEq] at h
      obtain ⟨-, rfl⟩ := h
      exact List.nil_suffix
    | part p =>
      simp only [hrole, Option.bind_eq_some_iff] at h
      obtain ⟨next, -, h⟩ := h
      exact (ih h).trans (List.suffix_cons word words)

theorem read?_eq_some : s.read? words = some (r, rest) ↔
    s.readFrom? {} none words = some (r, rest) ∧ r.operands.length ≤ s.operands := by
  rw [read?]
  cases s.readFrom? {} none words with
  | none => simp
  | some read =>
    obtain ⟨o, left⟩ := read
    by_cases hle : o.operands.length ≤ s.operands
    · simp [hle]
      rintro rfl -
      exact hle
    · simp [hle]
      rintro rfl -
      exact Nat.not_le.1 hle

end Spec

namespace Invocation

variable {arguments : List String} {i : Invocation} {mode? grammar? : Option String}

/-- The arguments spell the invocation: `front` are the options before the name of the command,
`back` the options and the operands among the words behind it. -/
structure Spelled (arguments : List String) (i : Invocation) (front back : Options) (name : String)
    (spec : Spec) (words : List String) : Prop where
  readFront : sharedSpec.readFrom? {} none arguments = some (front, name :: words)
  frontOperands : front.operands.length ≤ sharedSpec.operands
  known : commandSpec? name = some spec
  readBack : spec.withShared.readFrom? {} none words = some (back, [])
  backOperands : back.operands.length ≤ spec.operands
  command : Command.ofOptions? name back = some i.command
  settings? : i.settings? = (back.value? "settings" <|> front.value? "settings")
  trace : i.trace = (back.flag "trace" || front.flag "trace")
  traceDir? : i.traceDir? = (back.value? "trace-dir" <|> front.value? "trace-dir")

theorem ofArguments?_eq_some : ofArguments? arguments = some i ↔
    ∃ front back name spec words, Spelled arguments i front back name spec words := by
  constructor
  · intro h
    rw [ofArguments?] at h
    simp only [Option.bind_eq_bind, Option.bind_eq_some_iff] at h
    obtain ⟨⟨front, left⟩, hfront, h⟩ := h
    obtain ⟨hfront, hoperands⟩ := Spec.read?_eq_some.1 hfront
    cases left with
    | nil => cases h
    | cons name words =>
      simp only [Option.bind_eq_some_iff] at h
      obtain ⟨spec, hspec, ⟨back, rest⟩, hback, h⟩ := h
      obtain ⟨hback, hoperands'⟩ := Spec.read?_eq_some.1 hback
      split at h
      · rename_i hrest
        rw [List.isEmpty_iff] at hrest
        subst hrest
        simp only [Option.bind_eq_some_iff] at h
        obtain ⟨command, hcommand, h⟩ := h
        cases h
        exact ⟨front, back, name, spec, words, hfront, hoperands, hspec, hback, hoperands',
          hcommand, rfl, rfl, rfl⟩
      · cases h
  · rintro ⟨front, back, name, spec, words, h⟩
    have hfront := Spec.read?_eq_some.2 ⟨h.readFront, h.frontOperands⟩
    have hback := (Spec.read?_eq_some (s := spec.withShared)).2 ⟨h.readBack, h.backOperands⟩
    rw [ofArguments?]
    simp only [hfront, hback, h.known, h.command, Option.bind_eq_bind, Option.bind_some,
      List.isEmpty_nil, if_true]
    rw [← h.settings?, ← h.trace, ← h.traceDir?]

/-- Without an operand only `convert` is a conversion, of standard input. -/
theorem operands_of_convert {name : String} {o : Options}
    (h : Command.ofOptions? name o = some (.convert none mode? grammar?)) :
    name = "convert" ∧ o.operands = [] ∧ o.value? "mode" = mode? ∧
      o.value? "grammar" = grammar? := by
  rw [Command.ofOptions?.eq_def] at h
  split at h
  case h_1 hoperands =>
    cases h
    exact ⟨rfl, hoperands, rfl, rfl⟩
  all_goals cases h

/-- **An operand behind two dashes** is converted instead of standard input, whatever it looks
like. -/
theorem ofArguments?_append_operand (h : ofArguments? arguments = some i)
    (hdashes : "--" ∉ arguments) (hcommand : i.command = .convert none mode? grammar?)
    (text : String) :
    ofArguments? (arguments ++ ["--", text]) =
      some { i with command := .convert (some text) mode? grammar? } := by
  obtain ⟨front, back, name, spec, words, h⟩ := ofArguments?_eq_some.1 h
  have hcommand' := h.command
  rw [hcommand] at hcommand'
  obtain ⟨rfl, hoperands, hmode, hgrammar⟩ := operands_of_convert hcommand'
  have hwords : "--" ∉ words := fun hmem =>
    hdashes ((Spec.suffix_of_readFrom? h.readFront).subset (List.mem_cons_of_mem _ hmem))
  have hspec : spec.operands = 1 := by
    have hknown := h.known
    cases hknown
    rfl
  rw [ofArguments?_eq_some]
  refine ⟨front, back.addOperands [text], "convert", spec, words ++ ["--", text], ?_,
    h.frontOperands, h.known, ?_, ?_, ?_, h.settings?, h.trace, h.traceDir?⟩
  · exact Spec.readFrom?_append h.readFront (List.cons_ne_nil _ _)
  · exact Spec.readFrom?_append_dashes h.readBack hwords
  · show (back.operands ++ [text]).length ≤ spec.operands
    rw [hoperands, hspec]
    exact Nat.le_refl 1
  · have hadded : (back.addOperands [text]).operands = [text] := by
      show back.operands ++ [text] = [text]
      rw [hoperands, List.nil_append]
    rw [← hmode, ← hgrammar]
    simp only [Command.ofOptions?.eq_def, hadded]
    rfl

end Invocation

end Translit.Tool
