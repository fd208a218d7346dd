import Translit.Proofs.Grammar.Meaning
import Translit.Proofs.Json.Printing
import Translit.Proofs.Json.Records

/-!
# Renderings of grammars

A grammar may be written down in many ways: each record as an object or as an array, what is
optional left out or `null`, and all that JSON leaves open. Every way gives the grammar back.

* `ConditionEntry.WrittenAs`, `RuleEntry.WrittenAs`, `PatternEntry.WrittenAs`,
  `Document.WrittenAs`: the JSON values that hold an entry or a document;
* `recovers_document`: what is read in such a value;
* `IsRendering`: the files in which a grammar is written down;
* `renderings_decode`: there are such files, and the grammar is read in all of them.
-/

namespace Translit.Grammar

open Json

/-! ## Values that hold a document -/

/-- The value holds a condition as written. -/
def ConditionEntry.WrittenAs (e : ConditionEntry) (v : Value) : Prop :=
  ∃ scope value,
    v.Gives ["type".toList, "scope".toList, "value".toList] [some (.text e.kind), scope, value] ∧
    OptionalField IsText e.scope? scope ∧ OptionalField IsText e.value? value

/-- The value holds a rule as written. -/
def RuleEntry.WrittenAs (e : RuleEntry) (v : Value) : Prop :=
  ∃ conditions,
    v.Gives ["matches".toList, "replace".toList] [some conditions, some (.text e.replace)] ∧
    IsArray ConditionEntry.WrittenAs e.conditions conditions

/-- The value holds a pattern as written. -/
def PatternEntry.WrittenAs (e : PatternEntry) (v : Value) : Prop :=
  ∃ rules,
    v.Gives ["find".toList, "replace".toList, "rules".toList]
      [some (.text e.find), some (.text e.replace), rules] ∧
    OptionalField (IsArray RuleEntry.WrittenAs) e.rules? rules

/-- The value holds a grammar as written. -/
def Document.WrittenAs (d : Document) (v : Value) : Prop :=
  ∃ patterns,
    v.Gives ["vowel".toList, "consonant".toList, "casesensitive".toList, "patterns".toList]
      [some (.text d.vowel), some (.text d.consonant), some (.text d.caseSensitive),
        some patterns] ∧
    IsArray PatternEntry.WrittenAs d.patterns patterns

theorem recovers_condition : Recovers ConditionEntry.ofJson? ConditionEntry.WrittenAs := by
  rintro e v ⟨scope, value, hgives, hscope, hvalue⟩
  have hfields := Value.record?_of_gives (by decide) rfl hgives
  have hscope := Value.optional?_of_recovers Value.recovers_text? rfl hscope
  have hvalue := Value.optional?_of_recovers Value.recovers_text? rfl hvalue
  rw [ConditionEntry.ofJson?, hfields]
  simp only [Option.bind_eq_bind, Option.bind_some, hscope, hvalue]
  rfl

theorem recovers_rule : Recovers RuleEntry.ofJson? RuleEntry.WrittenAs := by
  rintro e v ⟨conditions, hgives, hconditions⟩
  have hfields := Value.record?_of_gives (by decide) rfl hgives
  have hconditions := Value.recovers_elements? recovers_condition _ _ hconditions
  rw [RuleEntry.ofJson?, hfields]
  simp only [Option.bind_eq_bind, Option.bind_some, hconditions]
  rfl

theorem recovers_pattern : Recovers PatternEntry.ofJson? PatternEntry.WrittenAs := by
  rintro e v ⟨rules, hgives, hrules⟩
  have hfields := Value.record?_of_gives (by decide) rfl hgives
  have hrules := Value.optional?_of_recovers (Value.recovers_elements? recovers_rule) rfl hrules
  rw [PatternEntry.ofJson?, hfields]
  simp only [Option.bind_eq_bind, Option.bind_some, hrules]
  rfl

/-- A document is read in every value that holds it. -/
theorem recovers_document : Recovers Document.ofJson? Document.WrittenAs := by
  rintro d v ⟨patterns, hgives, hpatterns⟩
  have hfields := Value.record?_of_gives (by decide) rfl hgives
  have hpatterns := Value.recovers_elements? recovers_pattern _ _ hpatterns
  rw [Document.ofJson?, hfields]
  simp only [Option.bind_eq_bind, Option.bind_some, hpatterns]
  rfl

/-! ## A document for every grammar -/

/-- An entry that describes the condition. -/
def ConditionEntry.of (c : Condition) : ConditionEntry where
  kind := c.side.name
  scope? := c.scope?.map fun scope => negationMark c.negated ++ scope.name
  value? := c.scope?.bind fun
    | .exact value => some value
    | _ => none

/-- An entry that describes the rule. -/
def RuleEntry.of (r : Rule) : RuleEntry := ⟨r.conditions.map ConditionEntry.of, r.replace⟩

/-- An entry that describes the pattern. -/
def PatternEntry.of (p : Pattern) : PatternEntry :=
  ⟨p.find, p.replace, p.rules?.map (·.map RuleEntry.of)⟩

/-- A condition without a scope cannot be written down if it is negated. -/
theorem ConditionEntry.of_means {c : Condition} (h : c.scope? = none → c.negated = false) :
    (ConditionEntry.of c).Means c := by
  obtain ⟨side, scope?, negated⟩ := c
  cases scope? with
  | none => exact ⟨rfl, fun _ => ⟨rfl, h rfl⟩, nofun⟩
  | some scope =>
    refine ⟨rfl, nofun, ?_⟩
    rintro raw ⟨⟩
    refine ⟨scope, rfl, rfl, ?_⟩
    rintro value rfl
    rfl

theorem RuleEntry.of_means {r : Rule}
    (h : ∀ c ∈ r.conditions, c.scope? = none → c.negated = false) : (RuleEntry.of r).Means r := by
  refine ⟨?_, rfl⟩
  change List.Forall₂ _ (r.conditions.map ConditionEntry.of) _
  rw [List.forall₂_map_left_iff, List.forall₂_same]
  exact fun c hc => ConditionEntry.of_means (h c hc)

/-- A list of rules cannot be written down if it is empty. -/
theorem PatternEntry.of_means {p : Pattern} (hrules : p.rules? ≠ some [])
    (h : ∀ r ∈ p.rules, ∀ c ∈ r.conditions, c.scope? = none → c.negated = false) :
    (PatternEntry.of p).Means p := by
  have hentries : (PatternEntry.of p).rules?.getD [] = p.rules.map RuleEntry.of := by
    unfold of Pattern.rules
    cases p.rules? <;> rfl
  refine ⟨rfl, rfl, ?_, hrules⟩
  rw [hentries, List.forall₂_map_left_iff, List.forall₂_same]
  exact fun r hr => RuleEntry.of_means (h r hr)

/-- The condition as an array. -/
def ConditionEntry.value (e : ConditionEntry) : Value :=
  .array [.text e.kind, optionalValue .text e.scope?, optionalValue .text e.value?]

/-- The rule as an array. -/
def RuleEntry.value (e : RuleEntry) : Value :=
  .array [.array (e.conditions.map ConditionEntry.value), .text e.replace]

/-- The pattern as an array. -/
def PatternEntry.value (e : PatternEntry) : Value :=
  .array [.text e.find, .text e.replace,
    optionalValue (fun rules => .array (rules.map RuleEntry.value)) e.rules?]

/-- The document as an array. -/
def Document.value (d : Document) : Value :=
  .array [.text d.vowel, .text d.consonant, .text d.caseSensitive,
    .array (d.patterns.map PatternEntry.value)]

theorem writes_condition : Writes ConditionEntry.value ConditionEntry.WrittenAs := by
  intro e
  obtain ⟨hscope, hscopeNumeric⟩ := writes_text.optional e.scope?
  obtain ⟨hvalue, hvalueNumeric⟩ := writes_text.optional e.value?
  refine ⟨⟨_, _, .all rfl, hscope, hvalue⟩, numeric_array ?_⟩
  simp [hscopeNumeric, hvalueNumeric, (writes_text e.kind).2]

theorem writes_rule : Writes RuleEntry.value RuleEntry.WrittenAs := by
  intro e
  obtain ⟨hconditions, hnumeric⟩ := writes_condition.array e.conditions
  refine ⟨⟨_, .all rfl, hconditions⟩, numeric_array ?_⟩
  simp [hnumeric, (writes_text e.replace).2]

theorem writes_pattern : Writes PatternEntry.value PatternEntry.WrittenAs := by
  intro e
  obtain ⟨hrules, hnumeric⟩ := writes_rule.array.optional e.rules?
  refine ⟨⟨_, .all rfl, hrules⟩, numeric_array ?_⟩
  simp [hnumeric, (writes_text _).2]

/-- Every document is held by a value. -/
theorem writes_document : Writes Document.value Document.WrittenAs := by
  intro d
  obtain ⟨hpatterns, hnumeric⟩ := writes_pattern.array d.patterns
  refine ⟨⟨_, .all rfl, hpatterns⟩, numeric_array ?_⟩
  simp [hnumeric, (writes_text _).2]

/-! ## Renderings -/

/-- The file is a rendering of a grammar given by its classes and its patterns: a document that
describes it, a value that holds the document, and a spelling of the value. -/
inductive IsRendering (vowel consonant caseSensitive : List Char) (ps : List Pattern) :
    Text.Utf8.Bytes → Prop
  | intro {entries : List PatternEntry} {v : Value} {cs : List Char}
      (document : List.Forall₂ PatternEntry.Means entries ps)
      (value : Document.WrittenAs ⟨vowel, consonant, caseSensitive, entries⟩ v)
      (text : v.Written cs) :
      IsRendering vowel consonant caseSensitive ps (Text.Utf8.encode cs)

variable {vowel consonant caseSensitive : List Char} {ps : List Pattern} {bytes : Text.Utf8.Bytes}

theorem exists_rendering (hrules : ∀ p ∈ ps, p.rules? ≠ some [])
    (h : ∀ p ∈ ps, ∀ r ∈ p.rules, ∀ c ∈ r.conditions, c.scope? = none → c.negated = false) :
    ∃ bytes, IsRendering vowel consonant caseSensitive ps bytes := by
  have hmeans : List.Forall₂ PatternEntry.Means (ps.map PatternEntry.of) ps := by
    rw [List.forall₂_map_left_iff, List.forall₂_same]
    exact fun p hp => PatternEntry.of_means (hrules p hp) (h p hp)
  obtain ⟨hvalue, hnumeric⟩ :=
    writes_document ⟨vowel, consonant, caseSensitive, ps.map PatternEntry.of⟩
  exact ⟨_, .intro hmeans hvalue (written_print hnumeric)⟩

/-- What is read in a rendering is a document that describes the grammar. -/
theorem IsRendering.document (h : IsRendering vowel consonant caseSensitive ps bytes) :
    ∃ entries, Document.ofBytes? bytes = some ⟨vowel, consonant, caseSensitive, entries⟩ ∧
      List.Forall₂ PatternEntry.Means entries ps := by
  cases h with
  | @intro entries v cs hmeans hvalue htext =>
    refine ⟨entries, ?_, hmeans⟩
    rw [Document.ofBytes?, ofBytes?_of_written htext]
    exact recovers_document _ _ hvalue

/-- A document that describes patterns with something to find describes a grammar of them. -/
theorem exists_toGrammar {d : Document} (hdisjoint : DisjointFolds d.vowel d.consonant)
    (hfind : ∀ p ∈ ps, p.find ≠ []) (hmeans : List.Forall₂ PatternEntry.Means d.patterns ps) :
    ∃ g, d.toGrammar = .ok g ∧ g.patterns = ps ∧ g.vowels = .ofText d.vowel ∧
      g.consonants = .ofText d.consonant ∧ g.caseSensitive = .ofText d.caseSensitive := by
  -- the entries find what the patterns find
  have hentries : List.Forall₂ (fun e p => e.find ≠ [] ∧ PatternEntry.Means e p) d.patterns ps :=
    ((List.forall₂_and_left _ _).2 ⟨hfind, hmeans.flip⟩).flip.imp
      fun e p h => ⟨h.2.find.symm ▸ h.1, h.2⟩
  obtain ⟨hfind, -⟩ := (List.forall₂_and_left _ _).1 hentries
  let g : Grammar := ⟨.ofText d.vowel, .ofText d.consonant, .ofText d.caseSensitive, ps,
    LetterClass.common?_eq_none_iff.1 (common?_ofText_eq_none.2 hdisjoint)⟩
  have hg : d.toGrammar = .ok g := toGrammar_eq_ok.2 ⟨hfind, hmeans, hdisjoint, rfl, rfl, rfl⟩
  exact ⟨g, hg, rfl, rfl, rfl, rfl⟩

/-- **Every rendering of a grammar gives it back.** A grammar whose patterns have something to find
and no empty list of rules, and whose conditions without a scope are not negated, can be written
down, and in whatever way that is done, its patterns and its classes are read. -/
theorem renderings_decode (hdisjoint : DisjointFolds vowel consonant)
    (hfind : ∀ p ∈ ps, p.find ≠ []) (hrules : ∀ p ∈ ps, p.rules? ≠ some [])
    (hscope : ∀ p ∈ ps, ∀ r ∈ p.rules, ∀ c ∈ r.conditions,
      c.scope? = none → c.negated = false) :
    (∃ bytes, IsRendering vowel consonant caseSensitive ps bytes) ∧
      ∀ bytes, IsRendering vowel consonant caseSensitive ps bytes →
        ∃ g, decode bytes = .ok g ∧ g.patterns = ps ∧ g.vowels = .ofText vowel ∧
          g.consonants = .ofText consonant ∧ g.caseSensitive = .ofText caseSensitive := by
  refine ⟨exists_rendering hrules hscope, fun bytes h => ?_⟩
  obtain ⟨entries, hread, hmeans⟩ := h.document
  obtain ⟨g, hg, hclasses⟩ :=
    exists_toGrammar (d := ⟨vowel, consonant, caseSensitive, entries⟩) hdisjoint hfind hmeans
  refine ⟨g, ?_, hclasses⟩
  rw [decode, hread]
  exact hg

/-- A pattern with a rule whose only condition asks nothing. -/
def spelledPattern : Pattern where
  find := ['k', '😀']
  replace := ['x']
  rules? := some [⟨[{ side := .before }], ['y']⟩]

/-- The rules of the pattern, with what is optional left out. -/
def spelledRules : Value :=
  .array [.array [.array [.array [.text "prefix".toList]], .text ['y']]]

/-- The members of the pattern, in another order and one that is unknown. -/
def spelledMembers : List (List Char × Value) := [
  ("rules".toList, spelledRules), ("note".toList, .array [.number "-1.5".toList, .string none]),
  ("replace".toList, .text ['x']), ("find".toList, .text ['k', '😀'])]

/-- A value that holds a grammar of this pattern. -/
def spelledValue : Value :=
  .array [.text ['a'], .text ['k'], .text [],
    .array [.object (spelledMembers.map fun m => (some m.1, m.2))]]

/-- The words of a spelling of the value, with escapes. -/
def spelledWords : List (List Char) := [
  ['['], quoted ['a'], [','], quoted ['k'], [','], quoted [], [','],
  ['['], ['\x7b'], quoted "rules".toList, [':'],
  ['['], ['['], ['['], ['['], quoted "prefix".toList, [']'], [']'], [','], quoted ['y'], [']'],
  [']'], [','], quoted "note".toList, [':'], ['['], "-1.5".toList, [','],
  quoted? none, [']'], [','], quoted "replace".toList, [':'], quoted ['x'], [','],
  quoted "find".toList, [':'], r#""\u006B\uD83d\ude00""#.toList, ['\x7d'], [']'], [']']]

theorem spelled_note : IsNumber "-1.5".toList := by
  have hdigits : ∀ ds ∈ [['1'], ['5']], IsDigits ds := fun ds hds =>
    ⟨by revert ds; decide, List.all_eq_true.1 (by revert ds; decide)⟩
  have hwhole : IsWhole ['1'] := .inr ⟨hdigits _ (by decide), by decide⟩
  have hfraction : IsFraction ['.', '5'] := .inr ⟨['5'], rfl, hdigits _ (by decide)⟩
  exact ⟨['-'], ['1'], ['.', '5'], [], rfl, by decide, hwhole, hfraction, .inl rfl⟩

theorem spelled_find : (Token.string (some ['k', '😀'])).Spelled
    r#""\u006B\uD83d\ude00""#.toList := by
  have hpieces : List.Forall₂ Piece.Spelled [.char 'k', .surrogate 0xD83D, .surrogate 0xDE00]
      [r#"\u006B"#.toList, r#"\uD83d"#.toList, r#"\ude00"#.toList] := by
    refine .cons (.unit ⟨by decide, ?_⟩) (.cons (.half (by decide) (by decide) ⟨by decide, ?_⟩)
      (.cons (.half (by decide) (by decide) ⟨by decide, ?_⟩) .nil))
    all_goals
      unfold IsHexDigit
      decide
  exact .text hpieces (.char (.pair (c := '😀') (by decide) .nil))

theorem spelled_spelledWords :
    List.Forall₂ Token.Spelled spelledValue.tokens spelledWords := by
  repeat' first
    | exact List.Forall₂.nil
    | refine List.Forall₂.cons ?_ ?_
  all_goals first
    | exact .mark rfl
    | exact spelled_quoted _
    | exact spelled_quoted? none
    | exact .number spelled_note
    | exact spelled_find

theorem writtenAs_spelledRules : OptionalField (IsArray RuleEntry.WrittenAs)
    (PatternEntry.of spelledPattern).rules? (some spelledRules) := by
  have homitted : [some (Value.text "prefix".toList), none, none] =
      [Value.text "prefix".toList].map some ++ List.replicate 2 none := rfl
  have hcondition : ConditionEntry.WrittenAs (.of { side := .before })
      (.array [.text "prefix".toList]) :=
    ⟨none, none, .array homitted, .omitted, .omitted⟩
  have hrule : RuleEntry.WrittenAs (.of ⟨[{ side := .before }], ['y']⟩)
      (.array [.array [.array [.text "prefix".toList]], .text ['y']]) :=
    ⟨_, .all rfl, _, rfl, .cons hcondition .nil⟩
  exact .held ⟨_, rfl, .cons hrule .nil⟩

theorem writtenAs_spelledValue :
    Document.WrittenAs ⟨['a'], ['k'], [], [.of spelledPattern]⟩ spelledValue := by
  have horder : spelledMembers.Perm
      (given ["find".toList, "replace".toList, "rules".toList]
        [some (.text ['k', '😀']), some (.text ['x']), some spelledRules] ++
        [("note".toList, .array [.number "-1.5".toList, .string none])]) :=
    (List.reverse_perm spelledMembers).symm.trans (.cons _ (.cons _ (.swap _ _ _)))
  have hpattern : PatternEntry.WrittenAs (.of spelledPattern)
      (.object (spelledMembers.map fun m => (some m.1, m.2))) :=
    ⟨_, .object horder (by decide), writtenAs_spelledRules⟩
  exact ⟨_, .all rfl, _, rfl, .cons hpattern .nil⟩

theorem isRendering_spelledWords :
    IsRendering ['a'] ['k'] [] [spelledPattern] (Text.Utf8.encode (' ' :: spelledWords.flatten)) :=
  .intro (.cons (PatternEntry.of_means (by decide) (by decide)) .nil) writtenAs_spelledValue
    (.afterSpace isSpace_blank (.ofWords spelled_spelledWords))

/-- The pattern is read in this file. -/
theorem spelled_renderings_decode :
    IsRendering ['a'] ['k'] [] [spelledPattern]
      (Text.Utf8.encode (' ' :: spelledWords.flatten)) ∧
    ∃ g, decode (Text.Utf8.encode (' ' :: spelledWords.flatten)) = .ok g ∧
      g.patterns = [spelledPattern] ∧ g.vowels = .ofText ['a'] ∧ g.consonants = .ofText ['k'] ∧
      g.caseSensitive = .ofText [] := by
  have hdisjoint : DisjointFolds ['a'] ['k'] := by decide +kernel
  have hread := @renderings_decode ['a'] ['k'] [] [spelledPattern] hdisjoint
    (by decide) (by decide) (by decide)
  exact ⟨isRendering_spelledWords, hread.2 _ isRendering_spelledWords⟩

end Translit.Grammar
