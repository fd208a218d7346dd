import Mathlib.Data.List.Forall2
import Mathlib.Tactic.Common
import Translit.Grammar.Document

/-!
# What grammar documents describe

An entry of a document describes a condition, a rule or a pattern. What it describes is said here
without the steps in which a document is read; reading an entry succeeds with what it describes and
with nothing else.

* `Side.name`, `Scope.name`: the names in documents;
* `ConditionEntry.Means`, `RuleEntry.Means`, `PatternEntry.Means`: what the entries describe;
* `toCondition_eq_ok`, `toRule_eq_ok`, `readRules?_eq_ok`, `toPattern_eq_ok`, `toGrammar_eq_ok`:
  what is read.
-/

namespace Translit

/-- The name of a side in a document. -/
def Side.name : Side → List Char
  | .before => "prefix".toList
  | .after => "suffix".toList

/-- The name of a scope in a document. The text of a comparison is no part of it. -/
def Scope.name : Scope → List Char
  | .vowel => "vowel".toList
  | .consonant => "consonant".toList
  | .punctuation => "punctuation".toList
  | .exact _ => "exact".toList

namespace Grammar

open Unicode (foldCase)

/-- What stands in front of the name of a scope: an exclamation mark if the scope is negated. -/
def negationMark (negated : Bool) : List Char := if negated then ['!'] else []

/-- The entry describes the condition. A value matters where a text is compared, and nowhere
else. -/
structure ConditionEntry.Means (e : ConditionEntry) (c : Condition) : Prop where
  side : e.kind = c.side.name
  absent : e.scope? = none → c.scope? = none ∧ c.negated = false
  present : ∀ raw, e.scope? = some raw → ∃ scope, c.scope? = some scope ∧
    raw = negationMark c.negated ++ scope.name ∧
    ∀ value, scope = .exact value → e.value? = some value

/-- The entry describes the rule, condition by condition. -/
structure RuleEntry.Means (e : RuleEntry) (r : Rule) : Prop where
  conditions : List.Forall₂ ConditionEntry.Means e.conditions r.conditions
  replace : e.replace = r.replace

/-- The entry describes the pattern, rule by rule. Rules that are left out and an empty list of
rules are the same, and the pattern has no empty list of them. -/
structure PatternEntry.Means (e : PatternEntry) (p : Pattern) : Prop where
  find : e.find = p.find
  replace : e.replace = p.replace
  rules : List.Forall₂ RuleEntry.Means (e.rules?.getD []) p.rules
  rules_ne : p.rules? ≠ some []

/-- No pattern that entries describe has an empty list of rules. -/
theorem all_rules_ne_of_means {entries : List PatternEntry} {ps : List Pattern}
    (h : List.Forall₂ PatternEntry.Means entries ps) : ∀ p ∈ ps, p.rules? ≠ some [] := by
  have hboth : List.Forall₂ (fun p e => p.rules? ≠ some [] ∧ PatternEntry.Means e p) ps entries :=
    h.flip.imp fun _ _ hmeans => ⟨hmeans.rules_ne, hmeans⟩
  exact ((List.forall₂_and_left _ _).1 hboth).1

/-! ## Reading entries one after the other -/

section Reading

variable {ε α β : Type} {f : α → Except ε β} {xs : List α} {ys : List β} {err : ε}

theorem map_eq_ok {x : Except ε α} {make : α → β} {b : β} :
    x.map make = .ok b ↔ ∃ a, x = .ok a ∧ make a = b := by
  cases x <;> simp [Except.map]

theorem map_eq_error {x : Except ε α} {make : α → β} :
    x.map make = .error err ↔ x = .error err := by
  cases x <;> simp [Except.map]

/-- A list is read entry by entry. -/
theorem mapM_eq_ok : xs.mapM f = .ok ys ↔ List.Forall₂ (fun x y => f x = .ok y) xs ys := by
  induction xs generalizing ys with
  | nil => cases ys <;> simp [pure, Except.pure]
  | cons x xs ih =>
    rw [List.mapM_cons]
    cases hx : f x with
    | error e => cases ys <;> simp [bind, Except.bind, hx]
    | ok y =>
      cases hxs : xs.mapM f with
      | error e => cases ys <;> simp [bind, Except.bind, hx, ← ih, hxs]
      | ok rest => cases ys <;> simp [bind, Except.bind, pure, Except.pure, hx, ← ih, hxs]

/-- If an entry is refused for the first of its faults, a list is refused for the first of all. -/
theorem mapM_eq_error {faults : α → List ε}
    (h : ∀ x e, f x = .error e ↔ (faults x).head? = some e) :
    xs.mapM f = .error err ↔ (xs.flatMap faults).head? = some err := by
  induction xs with
  | nil => simp [pure, Except.pure]
  | cons x xs ih =>
    rw [List.mapM_cons, List.flatMap_cons, List.head?_append]
    cases hx : f x with
    | error e =>
      rw [(h x e).1 hx]
      simp [bind, Except.bind]
    | ok y =>
      have hnone : (faults x).head? = none := by
        cases hfaults : (faults x).head? with
        | none => rfl
        | some e =>
          rw [(h x e).2 hfaults] at hx
          cases hx
      rw [hnone, Option.none_or, ← ih]
      cases xs.mapM f <;> simp [bind, Except.bind, pure, Except.pure]

theorem forall₂_zipIdx {R : α → β → Prop} {n : Nat} :
    List.Forall₂ (fun x y => R x.1 y) (xs.zipIdx n) ys ↔ List.Forall₂ R xs ys := by
  rw [← List.forall₂_map_left_iff, List.zipIdx_map_fst]

end Reading

/-! ## Conditions -/

variable {find raw name kind : List Char} {value? : Option (List Char)} {side : Side}
  {scope : Scope} {c : Condition} {err : Error}

theorem sideOf?_eq_some : sideOf? kind = some side ↔ kind = side.name := by
  constructor
  · intro h
    unfold sideOf? at h
    split at h
    · cases h
      assumption
    · split at h
      · cases h
        assumption
      · cases h
  · rintro rfl
    cases side <;> rfl

/-- The exclamation mark is taken off once. -/
theorem splitNegation_spec (raw : List Char) :
    raw = negationMark (splitNegation raw).1 ++ (splitNegation raw).2 := by
  unfold splitNegation
  split <;> rfl

/-- No name of a scope begins with an exclamation mark. -/
theorem splitNegation_name (negated : Bool) (scope : Scope) :
    splitNegation (negationMark negated ++ scope.name) = (negated, scope.name) := by
  cases negated <;> cases scope <;> rfl

theorem scopeOf_eq_ok : scopeOf find raw name value? = .ok scope ↔
    name = scope.name ∧ ∀ value, scope = .exact value → value? = some value := by
  constructor
  · intro h
    unfold scopeOf at h
    split at h
    · cases h
      exact ⟨‹_›, fun _ h => by cases h⟩
    · split at h
      · cases h
        exact ⟨‹_›, fun _ h => by cases h⟩
      · split at h
        · cases h
          exact ⟨‹_›, fun _ h => by cases h⟩
        · split at h
          · split at h
            · cases h
              exact ⟨‹_›, fun _ h => by cases h; rfl⟩
            · cases h
          · cases h
  · rintro ⟨rfl, hvalue⟩
    cases scope with
    | exact value => rw [hvalue value rfl]; rfl
    | _ => rfl

/-- What is done with an entry that has a scope. -/
theorem toCondition_of_scope {e : ConditionEntry} {side : Side} (hside : e.kind = side.name)
    (hraw : e.scope? = some raw) : e.toCondition find =
      (scopeOf find raw (splitNegation raw).2 e.value?).map fun scope =>
        { side, scope? := some scope, negated := (splitNegation raw).1 } := by
  unfold ConditionEntry.toCondition
  rw [sideOf?_eq_some.2 hside, hraw]
  simp only
  cases scopeOf find raw (splitNegation raw).2 e.value? <;> rfl

theorem means_of_toCondition {e : ConditionEntry} (h : e.toCondition find = .ok c) :
    e.Means c := by
  cases hside : sideOf? e.kind with
  | none =>
    simp only [ConditionEntry.toCondition, hside] at h
    cases h
  | some side =>
    have hkind := sideOf?_eq_some.1 hside
    cases hraw : e.scope? with
    | none =>
      simp only [ConditionEntry.toCondition, hside, hraw, Except.ok.injEq] at h
      subst h
      exact ⟨hkind, fun _ => ⟨rfl, rfl⟩, fun raw h => absurd (hraw.symm.trans h) (by simp)⟩
    | some raw =>
      rw [toCondition_of_scope hkind hraw] at h
      obtain ⟨scope, hscope, rfl⟩ := map_eq_ok.1 h
      obtain ⟨hname, hvalue⟩ := scopeOf_eq_ok.1 hscope
      refine ⟨hkind, fun h => absurd (hraw.symm.trans h) (by simp), fun raw' hraw' => ?_⟩
      obtain rfl : raw = raw' := Option.some.inj (hraw.symm.trans hraw')
      exact ⟨scope, rfl, hname ▸ splitNegation_spec raw, hvalue⟩

theorem ConditionEntry.Means.toCondition {e : ConditionEntry} (h : e.Means c) :
    e.toCondition find = .ok c := by
  obtain ⟨side, scope?, negated⟩ := c
  have hside : e.kind = side.name := h.side
  cases hraw : e.scope? with
  | none =>
    obtain ⟨hscope, hnegated⟩ : scope? = none ∧ negated = false := h.absent hraw
    simp only [ConditionEntry.toCondition, sideOf?_eq_some.2 hside, hraw, hscope, hnegated]
  | some raw =>
    obtain ⟨scope, hscope, hname, hvalue⟩ := h.present raw hraw
    have hscope' : scope? = some scope := hscope
    rw [toCondition_of_scope hside hraw, hname, splitNegation_name,
      scopeOf_eq_ok.2 ⟨rfl, hvalue⟩, hscope']
    rfl

/-- **A condition is read exactly from the entries that describe it.** -/
theorem toCondition_eq_ok {e : ConditionEntry} : e.toCondition find = .ok c ↔ e.Means c :=
  ⟨means_of_toCondition, ConditionEntry.Means.toCondition⟩

/-! ## Rules, patterns and grammars -/

theorem toRule_eq (find : List Char) (e : RuleEntry) : e.toRule find =
    (e.conditions.mapM (ConditionEntry.toCondition find)).map
      fun conditions => ⟨conditions, e.replace⟩ := by
  unfold RuleEntry.toRule
  cases e.conditions.mapM (ConditionEntry.toCondition find) <;> rfl

theorem toRule_eq_ok {e : RuleEntry} {r : Rule} : e.toRule find = .ok r ↔ e.Means r := by
  rw [toRule_eq, map_eq_ok]
  simp only [mapM_eq_ok, toCondition_eq_ok]
  constructor
  · rintro ⟨conditions, hconditions, rfl⟩
    exact ⟨hconditions, rfl⟩
  · rintro ⟨hconditions, hreplace⟩
    exact ⟨r.conditions, hconditions, by rw [hreplace]⟩

section Rules

variable {entries? : Option (List RuleEntry)} {rules? : Option (List Rule)}

theorem readRules?_of_nil (h : entries?.getD [] = []) : readRules? find entries? = .ok none := by
  rcases entries? with _ | _ | _
  · rfl
  · rfl
  · cases h

theorem readRules?_of_ne_nil (h : entries?.getD [] ≠ []) : readRules? find entries? =
    ((entries?.getD []).mapM (RuleEntry.toRule find)).map some := by
  rcases entries? with _ | _ | _
  · exact absurd rfl h
  · exact absurd rfl h
  · rfl

/-- **Rules are read exactly from the entries that describe them**, and never as an empty list. -/
theorem readRules?_eq_ok : readRules? find entries? = .ok rules? ↔
    List.Forall₂ RuleEntry.Means (entries?.getD []) (rules?.getD []) ∧ rules? ≠ some [] := by
  by_cases hnil : entries?.getD [] = []
  · rw [readRules?_of_nil hnil, hnil, List.forall₂_nil_left_iff]
    rcases rules? with _ | _ | _ <;> simp
  · rw [readRules?_of_ne_nil hnil, map_eq_ok]
    simp only [mapM_eq_ok, toRule_eq_ok]
    constructor
    · rintro ⟨rules, hrules, rfl⟩
      refine ⟨hrules, ?_⟩
      rintro ⟨⟩
      exact hnil (List.forall₂_nil_right_iff.1 hrules)
    · rintro ⟨hrules, -⟩
      cases rules? with
      | none => exact absurd (List.forall₂_nil_right_iff.1 hrules) hnil
      | some rules => exact ⟨rules, hrules, rfl⟩

end Rules

theorem toPattern_of_empty {e : PatternEntry} (h : e.find = []) (index : Nat) :
    e.toPattern index = .error (.emptyFind index) := by
  unfold PatternEntry.toPattern
  rw [h]
  rfl

theorem toPattern_of_nonempty {e : PatternEntry} (h : e.find ≠ []) (index : Nat) :
    e.toPattern index =
      (readRules? e.find e.rules?).map fun rules? => ⟨e.find, e.replace, rules?⟩ := by
  unfold PatternEntry.toPattern
  rw [if_neg (by simpa using h)]
  cases readRules? e.find e.rules? <;> rfl

theorem toPattern_eq_ok {e : PatternEntry} {index : Nat} {p : Pattern} :
    e.toPattern index = .ok p ↔ e.find ≠ [] ∧ e.Means p := by
  by_cases hfind : e.find = []
  · rw [toPattern_of_empty hfind]
    exact ⟨fun h => (by cases h), fun h => absurd hfind h.1⟩
  · rw [toPattern_of_nonempty hfind, map_eq_ok]
    simp only [readRules?_eq_ok]
    constructor
    · rintro ⟨rules?, ⟨hrules, hne⟩, rfl⟩
      exact ⟨hfind, rfl, rfl, hrules, hne⟩
    · rintro ⟨-, hfind', hreplace, hrules, hne⟩
      exact ⟨p.rules?, ⟨hrules, hne⟩, by rw [hfind', hreplace]⟩

/-- The patterns of a document, each read with its index. -/
def Document.readPatterns (d : Document) : Except Error (List Pattern) :=
  d.patterns.zipIdx.mapM fun e => e.1.toPattern e.2

theorem readPatterns_eq_ok {d : Document} {ps : List Pattern} :
    d.readPatterns = .ok ps ↔
      (∀ e ∈ d.patterns, e.find ≠ []) ∧ List.Forall₂ PatternEntry.Means d.patterns ps := by
  rw [Document.readPatterns, mapM_eq_ok]
  simp only [toPattern_eq_ok]
  rw [forall₂_zipIdx (R := fun e p => e.find ≠ [] ∧ PatternEntry.Means e p), List.forall₂_and_left]

/-! ## Letter classes -/

variable {vowels consonants caseSensitive : List Char} {ps : List Pattern} {g : Grammar}

/-- The letters of the two texts have no fold in common. -/
def DisjointFolds (vowels consonants : List Char) : Prop :=
  ∀ v ∈ vowels, ∀ k ∈ consonants, foldCase v ≠ foldCase k

instance (vowels consonants : List Char) : Decidable (DisjointFolds vowels consonants) :=
  decidable_of_iff (vowels.all fun v => consonants.all fun k => foldCase v != foldCase k)
    (by simp [DisjointFolds])

theorem mem_folds_ofText {l : Char} {text : List Char} :
    l ∈ (LetterClass.ofText text).folds ↔ ∃ a ∈ text, foldCase a = l := by
  simp [LetterClass.ofText, List.mem_eraseDups]

theorem common?_ofText_eq_none :
    (LetterClass.ofText vowels).common? (.ofText consonants) = none ↔
      DisjointFolds vowels consonants := by
  rw [LetterClass.common?_eq_none_iff]
  simp only [mem_folds_ofText, DisjointFolds]
  constructor
  · intro h v hv k hk he
    exact h _ ⟨v, hv, rfl⟩ ⟨k, hk, he.symm⟩
  · rintro h _ ⟨v, hv, rfl⟩ ⟨k, hk, he⟩
    exact h v hv k hk he.symm

theorem build_eq_ok : build vowels consonants caseSensitive ps = .ok g ↔
    DisjointFolds vowels consonants ∧ g.vowels = .ofText vowels ∧
      g.consonants = .ofText consonants ∧ g.caseSensitive = .ofText caseSensitive ∧
      g.patterns = ps := by
  unfold build
  simp only
  split
  · rename_i l hl
    refine ⟨fun h => (by cases h), fun h => ?_⟩
    rw [common?_ofText_eq_none.2 h.1] at hl
    cases hl
  · rename_i hnone
    have hdisjoint := common?_ofText_eq_none.1 hnone
    constructor
    · intro h
      cases h
      exact ⟨hdisjoint, rfl, rfl, rfl, rfl⟩
    · rintro ⟨-, hvowels, hconsonants, hcaseSensitive, hpatterns⟩
      obtain ⟨v, k, s, ps', hg⟩ := g
      obtain rfl : v = .ofText vowels := hvowels
      obtain rfl : k = .ofText consonants := hconsonants
      obtain rfl : s = .ofText caseSensitive := hcaseSensitive
      obtain rfl : ps' = ps := hpatterns
      rfl

/-- Classes are refused for a letter that is a fold of both. -/
theorem exists_common_of_build {err : Error}
    (h : build vowels consonants caseSensitive ps = .error err) :
    ∃ l, err = .overlappingClasses l ∧ (∃ v ∈ vowels, foldCase v = l) ∧
      ∃ k ∈ consonants, foldCase k = l := by
  unfold build at h
  simp only at h
  split at h
  · rename_i l hl
    cases h
    have hboth : l ∈ (LetterClass.ofText vowels).folds ∧
        l ∈ (LetterClass.ofText consonants).folds :=
      ⟨List.mem_of_find?_eq_some hl, by simpa using List.find?_some hl⟩
    exact ⟨l, rfl, mem_folds_ofText.1 hboth.1, mem_folds_ofText.1 hboth.2⟩
  · cases h

/-- **The grammars that a document describes**: there is one if every pattern finds something, every
entry describes something and the classes have nothing in common. -/
theorem toGrammar_eq_ok {d : Document} : d.toGrammar = .ok g ↔
    (∀ e ∈ d.patterns, e.find ≠ []) ∧ List.Forall₂ PatternEntry.Means d.patterns g.patterns ∧
      DisjointFolds d.vowel d.consonant ∧ g.vowels = .ofText d.vowel ∧
      g.consonants = .ofText d.consonant ∧ g.caseSensitive = .ofText d.caseSensitive := by
  have hread : d.toGrammar =
      d.readPatterns.bind (build d.vowel d.consonant d.caseSensitive) := rfl
  rw [hread]
  constructor
  · intro h
    cases hps : d.readPatterns with
    | error err =>
      rw [hps] at h
      cases h
    | ok ps =>
      rw [hps] at h
      obtain ⟨hdisjoint, hvowels, hconsonants, hcaseSensitive, rfl⟩ := build_eq_ok.1 h
      obtain ⟨hfind, hmeans⟩ := readPatterns_eq_ok.1 hps
      exact ⟨hfind, hmeans, hdisjoint, hvowels, hconsonants, hcaseSensitive⟩
  · rintro ⟨hfind, hmeans, hdisjoint, hvowels, hconsonants, hcaseSensitive⟩
    rw [readPatterns_eq_ok.2 ⟨hfind, hmeans⟩]
    exact build_eq_ok.2 ⟨hdisjoint, hvowels, hconsonants, hcaseSensitive, rfl⟩

end Grammar

end Translit
