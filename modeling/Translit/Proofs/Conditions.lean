import Mathlib.Tactic.Common
import Translit.Resolution

/-!
# Conditions and rules on a whole text

A condition is judged on the text on both sides of a match. Here it is judged on the whole text by
places, and the two verdicts agree for every span, also one that lies outside the text.

* `charAt?`, `windowAt?`: what a condition looks at, by places;
* `Condition.holdsAt`, `Rule.holdsAt`: the verdicts by places;
* `Condition.holds_ofSpan`: they are the verdicts on the surroundings of the span;
* `Resolution.IsFirst`, `Pattern.resolve_isFirst`: the choice of the first rule that holds.
-/

namespace Translit

/-- The character next to the span from `start` to `stop` of a text. -/
def charAt? (cs : List Char) (start stop : Nat) : Side → Option Char
  | .before => if start = 0 then none else cs[start - 1]?
  | .after => cs[stop]?

/-- The `len` characters next to the span, or `none` if they run over an end of the text. -/
def windowAt? (cs : List Char) (start stop len : Nat) : Side → Option (List Char)
  | .before =>
    if len ≤ start ∧ start ≤ cs.length then some ((cs.drop (start - len)).take len) else none
  | .after => if stop + len ≤ cs.length then some ((cs.drop stop).take len) else none

/-- The condition holds for the span from `start` to `stop` of a text. -/
def Condition.holdsAt (g : Grammar) (policy : Policy) (cs : List Char) (start stop : Nat)
    (c : Condition) : Bool :=
  match c.scope? with
  | none => true
  | some .vowel => (charAt? cs start stop c.side).any g.isVowel != c.negated
  | some .consonant => (charAt? cs start stop c.side).any g.isConsonant != c.negated
  | some .punctuation => (charAt? cs start stop c.side).all g.isPunctuation != c.negated
  | some (.exact value) =>
    match windowAt? cs start stop value.length c.side with
    | some window => (window == value) != c.negated
    | none => policy == .negatable && c.negated

/-- All conditions of the rule hold for the span. -/
def Rule.holdsAt (g : Grammar) (policy : Policy) (cs : List Char) (start stop : Nat)
    (r : Rule) : Bool :=
  r.conditions.all (·.holdsAt g policy cs start stop)

variable {g : Grammar} {policy : Policy} {cs : List Char} {start stop : Nat} {side : Side}

/-! ## The surroundings of a span -/

theorem neighbour?_ofSpan :
    (Surroundings.ofSpan cs start stop).neighbour? side = charAt? cs start stop side := by
  cases side with
  | before =>
    simp only [Surroundings.neighbour?, Surroundings.on?, Surroundings.ofSpan, charAt?]
    split
    · rename_i hle
      rw [Option.bind_some, List.head?_reverse, List.getLast?_eq_getElem?,
        List.length_take_of_le hle]
      rcases Nat.eq_zero_or_pos start with rfl | hpos
      · simp
      · rw [if_neg (by omega), List.getElem?_take_of_lt (by omega)]
    · rw [Option.bind_none, if_neg (by omega), List.getElem?_eq_none (by omega)]
  | after =>
    simp only [Surroundings.neighbour?, Surroundings.on?, Surroundings.ofSpan, charAt?]
    split
    · rw [Option.bind_some, List.head?_drop]
    · rw [Option.bind_none, List.getElem?_eq_none (by omega)]

/-- The text in front of a place, read backwards, begins with the window read backwards. -/
theorem take_reverse_take {len : Nat} (hlen : len ≤ start) (hle : start ≤ cs.length) :
    (cs.take start).reverse.take len = ((cs.drop (start - len)).take len).reverse := by
  rw [List.take_reverse, List.length_take_of_le hle, List.drop_take]
  congr 2
  omega

theorem compare?_ofSpan (value : List Char) :
    (Surroundings.ofSpan cs start stop).compare? side value =
      (windowAt? cs start stop value.length side).map (· == value) := by
  cases side with
  | before =>
    simp only [Surroundings.compare?, Surroundings.on?, Surroundings.ofSpan, windowAt?,
      Side.facing]
    by_cases hle : start ≤ cs.length
    · rw [if_pos hle]
      simp only [List.length_reverse, List.length_take_of_le hle]
      by_cases hlen : value.length ≤ start
      · rw [if_pos hlen, if_pos ⟨hlen, hle⟩, take_reverse_take hlen hle, Option.map_some,
          Option.some.injEq, Bool.eq_iff_iff]
        simp
      · rw [if_neg hlen, if_neg (by omega), Option.map_none]
    · rw [if_neg hle, if_neg (by omega), Option.map_none]
  | after =>
    simp only [Surroundings.compare?, Surroundings.on?, Surroundings.ofSpan, windowAt?,
      Side.facing]
    by_cases hle : stop ≤ cs.length
    · rw [if_pos hle]
      simp only [List.length_drop]
      by_cases hlen : stop + value.length ≤ cs.length
      · rw [if_pos (by omega), if_pos hlen, Option.map_some]
      · rw [if_neg (by omega), if_neg hlen, Option.map_none]
    · rw [if_neg hle, if_neg (by omega), Option.map_none]

/-- **The verdict on the surroundings is the verdict by places.** -/
theorem Condition.holds_ofSpan (c : Condition) :
    c.holds g policy (Surroundings.ofSpan cs start stop) = c.holdsAt g policy cs start stop := by
  unfold Condition.holds Condition.holdsAt
  rcases c.scope? with _ | _ | _ | _ | value
  · rfl
  · simp only [neighbour?_ofSpan]
  · simp only [neighbour?_ofSpan]
  · simp only [neighbour?_ofSpan]
  · simp only [compare?_ofSpan]
    cases windowAt? cs start stop value.length c.side with
    | some window => rfl
    | none => cases policy <;> rfl

theorem Rule.holds_ofSpan (r : Rule) :
    r.holds g policy (Surroundings.ofSpan cs start stop) = r.holdsAt g policy cs start stop := by
  simp only [Rule.holds, Rule.holdsAt, Condition.holds_ofSpan]

/-- The text around a piece, from what lies in front of it and behind it. -/
theorem ofSpan_append (before w after : List Char) :
    Surroundings.ofSpan (before.reverse ++ (w ++ after)) before.length
      (before.length + w.length) = ⟨some before, some after⟩ := by
  have h1 : before.length ≤ (before.reverse ++ (w ++ after)).length := by simp
  have h2 : before.length + w.length ≤ (before.reverse ++ (w ++ after)).length := by
    simp only [List.length_append, List.length_reverse]
    omega
  have h3 : (before.reverse ++ (w ++ after)).take before.length = before.reverse :=
    List.take_left' (by simp)
  have h4 : (before.reverse ++ (w ++ after)).drop (before.length + w.length) = after := by
    rw [← List.append_assoc]
    exact List.drop_left' (by simp)
  rw [Surroundings.ofSpan, if_pos h1, if_pos h2, h3, h4, List.reverse_reverse]

/-! ## The first rule that holds -/

/-- The replacement is that of the first rule with a property, and the pattern's own without one. -/
def Resolution.IsFirst (p : Pattern) (holds : Rule → Bool) (r : Resolution) : Prop :=
  match r.rule? with
  | some i => ∃ rule, p.rules[i]? = some rule ∧ holds rule ∧ r.text = rule.replace ∧
      ∀ j < i, ∀ earlier, p.rules[j]? = some earlier → holds earlier = false
  | none => r.text = p.replace ∧ ∀ rule ∈ p.rules, holds rule = false

theorem Pattern.resolve_isFirst (g : Grammar) (policy : Policy) (p : Pattern) (s : Surroundings) :
    (p.resolve g policy s).IsFirst p (·.holds g policy s) := by
  rw [Pattern.resolve_eq]
  split
  · rename_i r i h
    rw [List.find?_eq_some_iff_getElem] at h
    obtain ⟨hr, k, hk, hki, hearlier⟩ := h
    simp only [List.getElem_zipIdx, Prod.mk.injEq, Nat.zero_add] at hki
    obtain ⟨rfl, rfl⟩ := hki
    have hk' : k < p.rules.length := by simpa using hk
    refine ⟨p.rules[k], List.getElem?_eq_getElem hk', hr, rfl, fun j hj earlier he => ?_⟩
    obtain ⟨hj', rfl⟩ := List.getElem?_eq_some_iff.1 he
    simpa using hearlier j hj
  · rename_i h
    rw [List.find?_eq_none] at h
    refine ⟨rfl, fun rule hrule => ?_⟩
    obtain ⟨i, hi, rfl⟩ := List.getElem_of_mem hrule
    simpa using h (p.rules[i], i) (List.mk_mem_zipIdx_iff_getElem?.2 (List.getElem?_eq_getElem hi))

/-- The replacement, without the index of its rule. -/
theorem Resolution.IsFirst.text_eq {p : Pattern} {holds : Rule → Bool} {r : Resolution}
    (h : r.IsFirst p holds) : r.text = ((p.rules.find? holds).map (·.replace)).getD p.replace := by
  unfold Resolution.IsFirst at h
  split at h
  · obtain ⟨rule, hrule, hholds, htext, hearlier⟩ := h
    have : p.rules.find? holds = some rule := by
      obtain ⟨hi, rfl⟩ := List.getElem?_eq_some_iff.1 hrule
      refine List.find?_eq_some_iff_getElem.2 ⟨hholds, _, hi, rfl, fun j hj => ?_⟩
      rw [hearlier j hj _ (List.getElem?_eq_getElem (by omega))]
      rfl
    rw [this, htext]
    rfl
  · obtain ⟨htext, hnone⟩ := h
    have : p.rules.find? holds = none := by
      simpa [List.find?_eq_none] using hnone
    rw [this, htext]
    rfl

/-- There is one first rule. -/
theorem Resolution.IsFirst.unique {p : Pattern} {holds : Rule → Bool} {r r' : Resolution}
    (h : r.IsFirst p holds) (h' : r'.IsFirst p holds) : r = r' := by
  have htext : r.text = r'.text := h.text_eq.trans h'.text_eq.symm
  suffices hrule : r.rule? = r'.rule? by
    cases r
    cases r'
    simp_all
  unfold Resolution.IsFirst at h h'
  split at h <;> split at h'
  · rename_i i hi _ j hj
    obtain ⟨rule, hrule, hholds, -, hearlier⟩ := h
    obtain ⟨rule', hrule', hholds', -, hearlier'⟩ := h'
    have h1 : ¬ j < i := fun hlt => by simp [hearlier j hlt rule' hrule'] at hholds'
    have h2 : ¬ i < j := fun hlt => by simp [hearlier' i hlt rule hrule] at hholds
    rw [hi, hj, Nat.le_antisymm (Nat.not_lt.1 h1) (Nat.not_lt.1 h2)]
  · obtain ⟨rule, hrule, hholds, -⟩ := h
    simp [h'.2 rule (List.mem_of_getElem? hrule)] at hholds
  · obtain ⟨rule, hrule, hholds, -⟩ := h'
    simp [h.2 rule (List.mem_of_getElem? hrule)] at hholds
  · rename_i hi _ hj
    rw [hi, hj]

/-- Where more rules hold, the first one comes no later. -/
theorem Resolution.IsFirst.le {p : Pattern} {holds holds' : Rule → Bool} {r r' : Resolution}
    (h : r.IsFirst p holds) (h' : r'.IsFirst p holds')
    (himp : ∀ rule ∈ p.rules, holds' rule = true → holds rule = true) {j : Nat}
    (hj : r'.rule? = some j) : ∃ i ≤ j, r.rule? = some i := by
  unfold Resolution.IsFirst at h h'
  rw [hj] at h'
  obtain ⟨rule, hrule, hholds', -, -⟩ := h'
  have hholds := himp rule (List.mem_of_getElem? hrule) hholds'
  split at h
  · rename_i i hi
    obtain ⟨-, -, -, -, hearlier⟩ := h
    refine ⟨i, Nat.not_lt.1 fun hlt => ?_, hi⟩
    rw [hearlier j hlt rule hrule] at hholds
    cases hholds
  · rw [h.2 rule (List.mem_of_getElem? hrule)] at hholds
    cases hholds

/-- Two properties that agree on the rules of the pattern have the same first rule. -/
theorem Resolution.IsFirst.congr {p : Pattern} {holds holds' : Rule → Bool} {r : Resolution}
    (h : r.IsFirst p holds) (he : ∀ rule ∈ p.rules, holds rule = holds' rule) :
    r.IsFirst p holds' := by
  unfold Resolution.IsFirst at h ⊢
  split at h
  · obtain ⟨rule, hrule, hholds, htext, hearlier⟩ := h
    have hmem := List.mem_of_getElem? hrule
    refine ⟨rule, hrule, he rule hmem ▸ hholds, htext, fun j hj earlier hget => ?_⟩
    rw [← he earlier (List.mem_of_getElem? hget)]
    exact hearlier j hj earlier hget
  · exact ⟨h.1, fun rule hrule => he rule hrule ▸ h.2 rule hrule⟩

/-- Two evaluations that judge the conditions of a pattern alike choose the same replacement. -/
theorem Pattern.resolve_congr {p : Pattern} {g' : Grammar} {policy' : Policy} {s s' : Surroundings}
    (h : ∀ rule ∈ p.rules, ∀ c ∈ rule.conditions, c.holds g policy s = c.holds g' policy' s') :
    p.resolve g policy s = p.resolve g' policy' s' := by
  have hrule : ∀ rule ∈ p.rules, rule.holds g policy s = rule.holds g' policy' s' := by
    intro rule hrule
    rw [Bool.eq_iff_iff]
    simp only [Rule.holds, List.all_eq_true]
    exact forall₂_congr fun c hc => by rw [h rule hrule c hc]
  exact ((p.resolve_isFirst g policy s).congr hrule).unique (p.resolve_isFirst g' policy' s')

end Translit
