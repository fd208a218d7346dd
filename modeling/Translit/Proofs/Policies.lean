import Mathlib.Data.List.Forall2
import Translit.Proofs.Account
import Translit.Proofs.Comparisons

/-!
# Two policies

A negated comparison that runs over an end of the text holds under the one policy and fails under
the other. So more rules hold under the first: the text is cut alike, and no match takes a later
rule. Away from the ends, and without negated comparisons, the policies do the same.

* `Grammar.widest`: the longest text that a grammar compares with;
* `Condition.holds_negatable`: what holds under the strict policy holds under the other;
* `Segment.Relaxed`: the same step under the two policies;
* `explain_policies`: all steps under the two policies.
-/

namespace Translit

/-- The length of the longest text that a condition compares with. -/
def Grammar.widest (g : Grammar) : Nat := maxLength (g.conditions.map (·.value))

/-- A step `s` under the policy that lets more rules hold, and the step `s'` for the same piece of a
text of `n` characters under the other. -/
structure Segment.Relaxed (g : Grammar) (n : Nat) (s s' : Segment) : Prop where
  start : s.start = s'.start
  stop : s.stop = s'.stop
  source : s.source = s'.source
  pattern : s.pattern? = s'.pattern?
  /-- Where the stricter policy takes a rule, the other takes it or an earlier one. -/
  rule : ∀ j, s'.rule? = some j → ∃ i ≤ j, s.rule? = some i
  /-- So far from both ends that no comparison reaches them, they do the same. -/
  inside : g.widest ≤ s.start → s.stop + g.widest ≤ n → s.rule? = s'.rule? ∧ s.output = s'.output

variable {g : Grammar} {s : Surroundings} {c : Condition} {p : Pattern} {cs text : List Char}
  {piece : Placed}

theorem value_length_le_widest (hc : c ∈ g.conditions) : c.value.length ≤ g.widest :=
  length_le_maxLength (List.mem_map_of_mem hc)

/-! ## Verdicts under the two policies -/

theorem Condition.holds_negatable (h : c.holds g .strict s = true) :
    c.holds g .negatable s = true := by
  rcases c.policy_cases g s with hsame | ⟨value, -, -, hbeyond⟩
  · rwa [hsame .negatable .strict]
  · -- the strict policy lets no comparison hold beyond an end
    rw [hbeyond] at h
    cases h

theorem Rule.holds_negatable {r : Rule} (h : r.holds g .strict s = true) :
    r.holds g .negatable s = true := by
  unfold Rule.holds at h ⊢
  rw [List.all_eq_true] at h ⊢
  exact fun c hc => Condition.holds_negatable (h c hc)

theorem Pattern.resolve_rule_le {j : Nat} (hj : (p.resolve g .strict s).rule? = some j) :
    ∃ i ≤ j, (p.resolve g .negatable s).rule? = some i :=
  (p.resolve_isFirst g .negatable s).le (p.resolve_isFirst g .strict s)
    (fun _ _ => Rule.holds_negatable) hj

/-- With enough text on both sides of a match the policy has no say. -/
theorem resolve_inside {before after : List Char} (policy policy' : Policy) (hp : p ∈ g.patterns)
    (hbefore : g.widest ≤ before.length) (hafter : g.widest ≤ after.length) :
    p.resolve g policy ⟨some before, some after⟩ =
      p.resolve g policy' ⟨some before, some after⟩ := by
  refine Pattern.resolve_congr fun r hr c hc => Condition.holds_policy (.inr ?_)
  have hv := value_length_le_widest (mem_conditions hp hr hc)
  cases hside : c.side with
  | before => exact ⟨before, rfl, Nat.le_trans hv hbefore⟩
  | after => exact ⟨after, rfl, Nat.le_trans hv hafter⟩

namespace Transliterator

/-! ## Steps under the two policies -/

/-- The text is cut alike, whatever the policy. -/
theorem tokens_policy (g : Grammar) (policy policy' : Policy) (cs : List Char) :
    (ofGrammar g policy).tokens cs = (ofGrammar g policy').tokens cs := rfl

theorem segment_relaxed (hp : piece ∈ (ofGrammar g .negatable).tokens cs) :
    ((ofGrammar g .negatable).segment piece).Relaxed g cs.length
      ((ofGrammar g .strict).segment piece) := by
  rcases ((ofGrammar g .negatable).cuts_tokens cs).mem_cases hp with
    ⟨before, c, after, -, rfl⟩ | ⟨i, before, w, after, hcs, found, rfl⟩
  · rw [segment_ofChar, segment_ofChar]
    exact ⟨rfl, rfl, rfl, rfl, fun j hj => (by cases hj), fun _ _ => ⟨rfl, rfl⟩⟩
  · obtain ⟨p, hp, -⟩ := exists_pattern_of_found found
    rw [segment_ofWord before w after hp, segment_ofWord before w after hp]
    refine ⟨rfl, rfl, rfl, rfl, fun j => Pattern.resolve_rule_le, fun hstart hstop => ?_⟩
    have hlen : cs.length = before.length + (w.length + after.length) := by
      have := congrArg List.length hcs
      simpa using this
    dsimp only at hstart hstop ⊢
    rw [resolve_inside .negatable .strict (List.mem_of_getElem? hp) hstart (by omega)]
    exact ⟨rfl, rfl⟩

theorem segment_policy (policy policy' : Policy)
    (hneg : ∀ c ∈ g.conditions, c.negatesText = false)
    (hp : piece ∈ (ofGrammar g policy).tokens cs) :
    (ofGrammar g policy).segment piece = (ofGrammar g policy').segment piece := by
  rcases ((ofGrammar g policy).cuts_tokens cs).mem_cases hp with
    ⟨before, c, after, -, rfl⟩ | ⟨i, before, w, after, -, found, rfl⟩
  · rw [segment_ofChar, segment_ofChar]
  · obtain ⟨p, hp, -⟩ := exists_pattern_of_found found
    have hresolve : p.resolve g policy ⟨some before, some after⟩ =
        p.resolve g policy' ⟨some before, some after⟩ :=
      Pattern.resolve_congr fun r hr c hc => Condition.holds_policy
        (.inl (hneg c (mem_conditions (List.mem_of_getElem? hp) hr hc)))
    rw [segment_ofWord before w after hp, segment_ofWord before w after hp, hresolve]

/-- **One text under the two policies.** It is cut alike, no match takes a later rule where negated
comparisons beyond an end hold, and so far from both ends that no comparison reaches them each
match becomes the same. Without negated comparisons the policies do the same on every text. -/
theorem explain_policies (g : Grammar) (text : List Char) :
    List.Forall₂ (Segment.Relaxed g (g.normalize text).length)
      ((ofGrammar g .negatable).explain text) ((ofGrammar g .strict).explain text) ∧
    ((∀ c ∈ g.conditions, c.negatesText = false) →
      (ofGrammar g .negatable).explain text = (ofGrammar g .strict).explain text ∧
      (ofGrammar g .negatable).convert text = (ofGrammar g .strict).convert text) := by
  constructor
  · show List.Forall₂ _ (List.map _ ((ofGrammar g .negatable).tokens (g.normalize text)))
      (List.map _ ((ofGrammar g .strict).tokens (g.normalize text)))
    rw [tokens_policy g .strict .negatable, List.forall₂_map_left_iff, List.forall₂_map_right_iff,
      List.forall₂_same]
    exact fun _ => segment_relaxed
  · intro hneg
    have hexplain : (ofGrammar g .negatable).explain text = (ofGrammar g .strict).explain text :=
      List.map_congr_left fun _ => segment_policy .negatable .strict hneg
    exact ⟨hexplain, convert_eq_of_explain_eq hexplain⟩

/-- A grammar that compares texts on both sides, but negates no comparison. -/
def affirming : Grammar where
  vowels := .ofText "a".toList
  consonants := .ofText "kb".toList
  caseSensitive := .ofText "".toList
  patterns := [⟨"k".toList, "K".toList, some [
    ⟨[⟨.before, some (.exact "ab".toList), false⟩], "x".toList⟩,
    ⟨[⟨.after, some .vowel, true⟩, ⟨.after, some (.exact "b".toList), false⟩], "y".toList⟩]⟩]
  disjoint := LetterClass.common?_eq_none_iff.1 (by decide)

/-- The first comparison runs over the start of the text at the first match, the second over its
end at the last one. -/
theorem affirming_explain_policies :
    (∀ c ∈ affirming.conditions, c.negatesText = false) ∧
    (ofGrammar affirming .strict).convert "Kbabkk".toList = "ybabxK".toList ∧
    (ofGrammar affirming .negatable).convert "Kbabkk".toList = "ybabxK".toList := by
  have hneg : ∀ c ∈ affirming.conditions, c.negatesText = false := by decide
  have hstrict : (ofGrammar affirming .strict).convert "Kbabkk".toList = "ybabxK".toList := by
    decide +kernel
  refine ⟨hneg, hstrict, ?_⟩
  rw [((explain_policies affirming "Kbabkk".toList).2 hneg).2, hstrict]

end Transliterator

end Translit
