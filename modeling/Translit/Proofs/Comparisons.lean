import Translit.Proofs.Conditions

/-!
# What conditions look at

A condition looks at one side of a match, and there at the next character or at as many as it
compares with. How far that is can be read off the grammar.

* `Condition.value`, `Condition.negatesText`, `Grammar.conditions`: what a grammar compares;
* `maxLength`: the longest of several texts;
* `Condition.holds_congr`, `Condition.holds_of_take`: a condition sees one side, and not all of it;
* `Condition.policy_cases`, `Condition.holds_policy`: where the policy has no say.
-/

namespace Translit

/-- The text that a condition compares with, empty for a condition that compares none. -/
def Condition.value (c : Condition) : List Char :=
  match c.scope? with
  | some (.exact value) => value
  | _ => []

/-- The condition asks that a text is not there. -/
def Condition.negatesText (c : Condition) : Bool :=
  match c.scope? with
  | some (.exact _) => c.negated
  | _ => false

/-- The conditions of all rules. -/
def Grammar.conditions (g : Grammar) : List Condition :=
  g.patterns.flatMap fun p => p.rules.flatMap (·.conditions)

/-- The length of the longest text, and 0 without any. -/
def maxLength (texts : List (List Char)) : Nat := (texts.map List.length).max?.getD 0

variable {g : Grammar} {policy policy' : Policy} {s s' : Surroundings} {c : Condition}
  {x x' value : List Char} {n : Nat}

theorem mem_conditions {p : Pattern} {r : Rule} {c : Condition} (hp : p ∈ g.patterns)
    (hr : r ∈ p.rules) (hc : c ∈ r.conditions) : c ∈ g.conditions :=
  List.mem_flatMap.2 ⟨p, hp, List.mem_flatMap.2 ⟨r, hr, hc⟩⟩

theorem length_le_maxLength {texts : List (List Char)} (h : x ∈ texts) :
    x.length ≤ maxLength texts :=
  List.le_max?_getD_of_mem (List.mem_map_of_mem h)

theorem Condition.value_of_scope (h : c.scope? = some (.exact value)) : c.value = value := by
  simp [Condition.value, h]

theorem Condition.negatesText_of_scope (h : c.scope? = some (.exact value)) :
    c.negatesText = c.negated := by
  simp [Condition.negatesText, h]

/-! ## What a condition sees -/

/-- A condition looks at the next character and at the text that it compares with. -/
theorem Condition.holds_of_seen (hneighbour : s.neighbour? c.side = s'.neighbour? c.side)
    (hcompare : ∀ value, c.scope? = some (.exact value) →
      s.compare? c.side value = s'.compare? c.side value) :
    c.holds g policy s = c.holds g policy s' := by
  unfold Condition.holds
  cases hscope : c.scope? with
  | none => rfl
  | some scope =>
    cases scope with
    | exact value => simp only [hcompare value hscope]
    | _ => simp only [hneighbour]

/-- A condition looks at one side only. -/
theorem Condition.holds_congr (h : s.on? c.side = s'.on? c.side) :
    c.holds g policy s = c.holds g policy s' := by
  refine holds_of_seen ?_ fun value _ => ?_
  · rw [Surroundings.neighbour?, Surroundings.neighbour?, h]
  · rw [Surroundings.compare?, Surroundings.compare?, h]

theorem compare?_of_take {side : Side} (hv : value.length ≤ n) (h : s.on? side = some x)
    (hx : n ≤ x.length) :
    s.compare? side value = some ((x.take n).take value.length == side.facing value) := by
  have hvx : value.length ≤ x.length := Nat.le_trans hv hx
  rw [Surroundings.compare?, h]
  simp only [if_pos hvx, List.take_take, Nat.min_eq_left hv]

/-- A condition sees no further than the next character and the text that it compares with. -/
theorem Condition.holds_of_take (hn : 0 < n) (hv : c.value.length ≤ n)
    (h : s.on? c.side = some x) (h' : s'.on? c.side = some x') (hx : n ≤ x.length)
    (hx' : n ≤ x'.length) (htake : x.take n = x'.take n) :
    c.holds g policy s = c.holds g policy s' := by
  have hhead : x.head? = x'.head? := by
    have := congrArg List.head? htake
    rwa [List.head?_take, List.head?_take, if_neg (Nat.ne_of_gt hn),
      if_neg (Nat.ne_of_gt hn)] at this
  refine holds_of_seen ?_ fun value hscope => ?_
  · rw [Surroundings.neighbour?, Surroundings.neighbour?, h, h', Option.bind_some,
      Option.bind_some, hhead]
  · rw [value_of_scope hscope] at hv
    rw [compare?_of_take hv h hx, compare?_of_take hv h' hx', htake]

/-! ## Where the policy has no say -/

/-- The policy has no say, or it has the last word because a comparison runs over an end. -/
theorem Condition.policy_cases (g : Grammar) (s : Surroundings) (c : Condition) :
    (∀ policy policy', c.holds g policy s = c.holds g policy' s) ∨
      ∃ value, c.scope? = some (.exact value) ∧ s.compare? c.side value = none ∧
        ∀ policy : Policy, c.holds g policy s = policy.beyondEnd c.negated := by
  cases hscope : c.scope? with
  | none => exact .inl fun _ _ => by simp only [Condition.holds, hscope]
  | some scope =>
    cases scope with
    | exact value =>
      cases hcompare : s.compare? c.side value with
      | some equal => exact .inl fun _ _ => by simp only [Condition.holds, hscope, hcompare]
      | none =>
        refine .inr ⟨value, rfl, hcompare, fun _ => ?_⟩
        simp only [Condition.holds, hscope, hcompare]
    | _ => exact .inl fun _ _ => by simp only [Condition.holds, hscope]

/-- The policies judge a comparison alike if there is text enough for it or it is not negated. -/
theorem Condition.holds_policy
    (h : c.negatesText = false ∨ ∃ x, s.on? c.side = some x ∧ c.value.length ≤ x.length) :
    c.holds g policy s = c.holds g policy' s := by
  rcases c.policy_cases g s with hsame | ⟨value, hscope, hcompare, hbeyond⟩
  · exact hsame policy policy'
  · rw [value_of_scope hscope, negatesText_of_scope hscope] at h
    rcases h with hneg | ⟨x, hx, hlen⟩
    · rw [hbeyond, hbeyond, hneg]
      cases policy <;> cases policy' <;> rfl
    · rw [compare?_of_take hlen hx (Nat.le_refl _)] at hcompare
      cases hcompare

end Translit
