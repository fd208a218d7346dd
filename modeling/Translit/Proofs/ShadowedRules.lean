import Translit.Proofs.Grammar.Classes
import Translit.Proofs.LivePatterns
import Translit.Proofs.RomanLetters

/-!
# Rules that are never taken

The first rule that holds is taken, so a rule is never taken behind another one that holds wherever
it does. That can be seen from the conditions of the two: whatever is next to a match belongs to one
of three classes only, and so a condition that asks for one of them denies the others.

* `Condition.Implies`, `Rule.Covers`, `Pattern.Shadowed`: conditions that imply others, and rules
  behind one that holds wherever they do;
* `Condition.Implies.holds`, `Rule.Covers.holds`: they do what they are named for;
* `rule?_ne_of_shadowed`, `rule?_ne_of_mem_explain`: a shadowed rule is not the first that holds,
  and is not taken in a conversion;
* `shadowed_never_taken`: this for every pattern, and the shadowed rules of the phonetic grammar.
-/

namespace Translit

variable {g : Grammar} {policy : Policy} {s : Surroundings} {p : Pattern} {text f : List Char}
  {j : Nat}

/-- The scope is a class of characters. -/
def Scope.isClass : Scope → Bool
  | vowel | consonant | punctuation => true
  | exact _ => false

/-- The first condition implies the second: this one asks nothing, or is the same, or denies a class
on the side where the first one asks for another. -/
def Condition.Implies (c d : Condition) : Prop :=
  d.scope? = none ∨ c = d ∨
    (c.side = d.side ∧ c.negated = false ∧ d.negated = true ∧
      ∃ a ∈ c.scope?, ∃ b ∈ d.scope?, a.isClass = true ∧ b.isClass = true ∧ a ≠ b)

instance (c d : Condition) : Decidable (c.Implies d) := inferInstanceAs (Decidable (_ ∨ _))

/-- Each condition of the first rule is implied by one of the second. -/
def Rule.Covers (r r' : Rule) : Prop := ∀ d ∈ r.conditions, ∃ c ∈ r'.conditions, c.Implies d

instance (r r' : Rule) : Decidable (r.Covers r') := inferInstanceAs (Decidable (∀ _ ∈ _, _))

/-- A rule before rule `j` of the pattern covers it. -/
def Pattern.Shadowed (p : Pattern) (j : Nat) : Prop :=
  ∃ i < j, ∃ r ∈ p.rules[i]?, ∃ r' ∈ p.rules[j]?, r.Covers r'

instance (p : Pattern) (j : Nat) : Decidable (p.Shadowed j) :=
  inferInstanceAs (Decidable (∃ _ < _, _))

theorem Pattern.Shadowed.lt_length (h : p.Shadowed j) : j < p.rules.length := by
  obtain ⟨i, -, r, -, r', hr', -⟩ := h
  exact (List.getElem?_eq_some_iff.1 hr').1

/-! ## What is implied -/

/-- What is next to a match is of the class; where nothing is, that is punctuation. -/
def Scope.fits (g : Grammar) (next? : Option Char) : Scope → Bool
  | vowel => next?.any g.isVowel
  | consonant => next?.any g.isConsonant
  | punctuation => next?.all g.isPunctuation
  | exact _ => false

theorem Condition.holds_of_isClass {c : Condition} {a : Scope} (hscope : c.scope? = some a)
    (ha : a.isClass = true) :
    c.holds g policy s = (a.fits g (s.neighbour? c.side) != c.negated) := by
  unfold Condition.holds
  rw [hscope]
  cases a with
  | exact value => cases ha
  | _ => rfl

/-- **One class only.** What is next to a match fits one class and no other. -/
theorem Scope.fits_other {a b : Scope} (hne : a ≠ b) (next? : Option Char)
    (h : a.fits g next? = true) : b.fits g next? = false := by
  cases next? with
  | none =>
    -- at an end of the text there is punctuation, and neither a vowel nor a consonant
    cases a <;> cases b <;> simp_all [Scope.fits]
  | some x =>
    have hdisjoint : g.isVowel x = true → g.isConsonant x = false :=
      Grammar.isConsonant_of_isVowel
    cases a <;> cases b <;> simp_all [Scope.fits, Grammar.isPunctuation]

/-- **What is implied holds** wherever the condition does that implies it. -/
theorem Condition.Implies.holds {c d : Condition} (h : c.Implies d)
    (hc : c.holds g policy s = true) : d.holds g policy s = true := by
  rcases h with hnone | rfl | ⟨hside, hasks, hdenies, a, ha, b, hb, haclass, hbclass, hne⟩
  · simp [Condition.holds, hnone]
  · exact hc
  · rw [Condition.holds_of_isClass ha haclass, hasks, Bool.bne_false] at hc
    rw [Condition.holds_of_isClass hb hbclass, hdenies, ← hside, Scope.fits_other hne _ hc]
    rfl

theorem Rule.Covers.holds {r r' : Rule} (h : r.Covers r') (hr : r'.holds g policy s = true) :
    r.holds g policy s = true := by
  unfold Rule.holds at hr ⊢
  rw [List.all_eq_true] at hr ⊢
  intro d hd
  obtain ⟨c, hc, himplies⟩ := h d hd
  exact himplies.holds (hr c hc)

/-! ## What is taken -/

/-- **A shadowed rule is not the first that holds.** -/
theorem rule?_ne_of_shadowed (policy : Policy) (s : Surroundings) (h : p.Shadowed j) :
    (p.resolve g policy s).rule? ≠ some j := by
  intro htaken
  obtain ⟨i, hlt, r, hr, r', hr', hcovers⟩ := h
  have hfirst := p.resolve_isFirst g policy s
  unfold Resolution.IsFirst at hfirst
  rw [htaken] at hfirst
  obtain ⟨rule, hrule, hholds, -, hearlier⟩ := hfirst
  obtain rfl : r' = rule := Option.some.inj (hr'.symm.trans hrule)
  have hnot : r.holds g policy s = false := hearlier i hlt r hr
  rw [hcovers.holds hholds] at hnot
  cases hnot

theorem Segment.Faithful.exists_resolve {cs : List Char} {s : Segment}
    (h : s.Faithful g policy cs) (hf : s.pattern? = some f) :
    ∃ p ∈ g.patterns, p.find = f ∧
      s.rule? = (p.resolve g policy (.ofSpan cs s.start s.stop)).rule? := by
  obtain ⟨-, i, p, hlast, hp, hfirst⟩ := h.word f hf
  have hfind : p.find = f := by
    have hhere := hlast.here
    rw [List.getElem?_map, hp] at hhere
    exact Option.some.inj hhere
  refine ⟨p, List.mem_of_getElem? hp, hfind, ?_⟩
  have hresolve := p.resolve_isFirst g policy (.ofSpan cs s.start s.stop)
  simp only [Rule.holds_ofSpan] at hresolve
  rw [← hfirst.unique hresolve]

namespace Transliterator

theorem faithful_of_mem_explain {s : Segment} (hs : s ∈ (ofGrammar g policy).explain text) :
    s.Faithful g policy (g.normalize text) :=
  faithful_segments ((ofGrammar g policy).cuts_tokens (g.normalize text)) s hs

/-- A rule that is shadowed in all patterns with one find sequence is not taken for it. -/
theorem rule?_ne_of_mem_explain (h : ∀ p ∈ g.patterns, p.find = f → p.Shadowed j) {s : Segment}
    (hs : s ∈ (ofGrammar g policy).explain text) (hf : s.pattern? = some f) :
    s.rule? ≠ some j := by
  obtain ⟨p, hp, hfind, hrule⟩ := (faithful_of_mem_explain hs).exists_resolve hf
  rw [hrule]
  exact rule?_ne_of_shadowed _ _ (h p hp hfind)

/-- What the phonetic grammar finds for a vowel that is a sign behind a consonant and a letter
anywhere else. The second rule of these patterns, for a vowel behind punctuation, repeats the
first. -/
def vowelSigns : List (List Char) :=
  ["OI", "OU", "O", "rri", "oo", "i", "I", "ee", "u", "U", "e"].map String.toList

/-- **The shadowed rules of the phonetic grammar.** -/
theorem embedded_shadowed : ∃ g, Grammar.embedded = .ok g ∧
    ∀ p ∈ g.patterns, ∀ j, p.Shadowed j ↔ p.find ∈ vowelSigns ∧ j = 1 := by
  have h : (Grammar.embedded.toOption.any fun g => decide (∀ p ∈ g.patterns,
      (p.find ∈ vowelSigns → p.Shadowed 1) ∧
        ∀ j < p.rules.length, p.Shadowed j → p.find ∈ vowelSigns ∧ j = 1)) = true := by
    decide +kernel
  obtain ⟨g, hg, hall⟩ := exists_ok_of_any h
  refine ⟨g, hg, ?_⟩
  intro p hp j
  obtain ⟨hshadowed, hno⟩ := of_decide_eq_true hall p hp
  constructor
  · intro hj
    exact hno j hj.lt_length hj
  · rintro ⟨hfind, rfl⟩
    exact hshadowed hfind

/-- **A shadowed rule is never taken**, whatever the grammar, the policy, the text and the span. In
the phonetic grammar the second rules of eleven vowels are shadowed, and no other rules are; so no
step of a conversion takes one of these. -/
theorem shadowed_never_taken :
    (∀ (g : Grammar) (policy : Policy) (p : Pattern) (cs : List Char) (start stop j : Nat),
      p.Shadowed j → (p.resolve g policy (.ofSpan cs start stop)).rule? ≠ some j) ∧
    ∃ g, Grammar.embedded = .ok g ∧
      (∀ p ∈ g.patterns, ∀ j, p.Shadowed j ↔ p.find ∈ vowelSigns ∧ j = 1) ∧
      ∀ (policy : Policy) (text : List Char), ∀ s ∈ (ofGrammar g policy).explain text,
        ∀ f ∈ vowelSigns, s.pattern? = some f → s.rule? ≠ some 1 := by
  constructor
  · intro g policy p cs start stop j h
    exact rule?_ne_of_shadowed policy _ h
  · obtain ⟨g, hg, hshadowed⟩ := embedded_shadowed
    refine ⟨g, hg, hshadowed, ?_⟩
    intro policy text s hs f hf hpattern
    apply rule?_ne_of_mem_explain _ hs hpattern
    rintro p hp rfl
    exact (hshadowed p hp 1).2 ⟨hf, rfl⟩

/-- A pattern whose first rule asks for less than the second one. -/
def lenient : Pattern := ⟨"a".toList, "0".toList, some [
  ⟨[{ side := .before }, ⟨.after, some .vowel, true⟩], "1".toList⟩,
  ⟨[⟨.after, some .punctuation, false⟩, ⟨.before, some (.exact "k".toList), true⟩], "2".toList⟩]⟩

/-- At the end of a text both rules of the pattern hold, and the second one is not taken; nor is it
for a vowel that stands alone in a text. -/
theorem lenient_never_taken :
    lenient.Shadowed 1 ∧
    (∀ rule ∈ lenient.rules, rule.holds overlapping .negatable (.ofSpan "ha".toList 1 2)) ∧
    (lenient.resolve overlapping .negatable (.ofSpan "ha".toList 1 2)).rule? ≠ some 1 ∧
    ∃ g, Grammar.embedded = .ok g ∧ ∃ s ∈ (ofGrammar g .strict).explain "O".toList,
      s.pattern? = some "O".toList ∧ s.rule? ≠ some 1 := by
  obtain ⟨hnever, g, hg, -, hembedded⟩ := shadowed_never_taken
  have hshadowed : lenient.Shadowed 1 := by decide +kernel
  have hholds : ∀ rule ∈ lenient.rules,
      rule.holds overlapping .negatable (.ofSpan "ha".toList 1 2) := by decide +kernel
  refine ⟨hshadowed, hholds, hnever _ _ _ _ _ _ _ hshadowed, g, hg, ?_⟩
  have h : (Grammar.embedded.toOption.any fun g => g.patterns.zipIdx.any fun (p, i) =>
      decide (p.find = "O".toList ∧ g.patterns[i]? = some p ∧ g.Live i p)) = true := by
    decide +kernel
  obtain ⟨g', hg', hlive⟩ := exists_ok_of_any h
  obtain rfl : g = g' := Except.ok.inj (hg.symm.trans hg')
  obtain ⟨⟨p, i⟩, -, hlive⟩ := List.any_eq_true.1 hlive
  obtain ⟨hfind, hp, hlive⟩ := of_decide_eq_true hlive
  have hexplain : (ofGrammar g .strict).explain p.find = [_] := explain_find hp hlive
  rw [hfind] at hexplain
  refine ⟨_, by rw [hexplain]; exact List.mem_singleton_self _, rfl, ?_⟩
  exact hembedded .strict "O".toList _ (by rw [hexplain]; exact List.mem_singleton_self _)
    "O".toList (by decide) rfl

end Transliterator

end Translit
