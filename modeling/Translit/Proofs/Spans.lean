import Mathlib.Data.List.Find
import Translit.Proofs.Account
import Translit.Proofs.Comparisons

/-!
# Rules at any span

A pattern may be resolved at any span, also at one that begins or ends outside the text, or that
ends before it begins. What its conditions ask is said here in exact arithmetic, without lists of
surroundings. Then they are judged with places of 64 bits, the sums and differences of which may
wrap: no span leads to a place outside the text, and none to another verdict.

* `Condition.Met`, `Rule.Met`: what a condition and a rule ask of the text at a span;
* `Condition.holds_iff_met`, `Resolution.IsFirst.eq_some_iff`, `Resolution.IsFirst.eq_none_iff`:
  what holds, and which rule is the first;
* `Place.sub?`, `Place.add?`: differences and sums that are given up where they would wrap;
* `Span`, `Span.beside?`, `Span.window?`: the places that a condition looks at, in 64 bits;
* `Pattern.resolveIn`: a pattern resolved with such places;
* `resolve_span`: the replacement at any span.
-/

namespace Translit

variable {g : Grammar} {policy : Policy} {cs v : List Char} {start stop len : Nat} {side : Side}
  {c : Condition} {p : Pattern}

/-! ## What conditions ask -/

/-- The place `i` lies in the text, next to the span from `start` to `stop`. -/
def Beside (cs : List Char) (start stop : Nat) (side : Side) (i : Nat) : Prop :=
  i < cs.length ∧
    match side with
    | .before => i + 1 = start
    | .after => i = stop

/-- The `len` places from `lo` to `hi` lie in the text, next to the span. -/
def Window (cs : List Char) (start stop len : Nat) (side : Side) (lo hi : Nat) : Prop :=
  lo + len = hi ∧ hi ≤ cs.length ∧
    match side with
    | .before => hi = start
    | .after => lo = stop

/-- There are `len` characters next to the span. -/
def InRange (cs : List Char) (start stop len : Nat) : Side → Prop
  | .before => len ≤ start ∧ start ≤ cs.length
  | .after => stop + len ≤ cs.length

/-- The text ends with `v` where the span begins, or begins with it where the span ends. -/
def Borders (cs : List Char) (start stop : Nat) (v : List Char) : Side → Prop
  | .before => v <:+ cs.take start
  | .after => v <+: cs.drop stop

/-- What a condition asks of the text at a span. A class is asked of the neighbour; where there is
none, that counts as punctuation. A text that is asked for must be in range; out of range, only the
negation holds, and that under one policy only. -/
def Condition.Met (g : Grammar) (policy : Policy) (cs : List Char) (start stop : Nat)
    (c : Condition) : Prop :=
  match c.scope? with
  | none => True
  | some .vowel =>
    (∃ i a, Beside cs start stop c.side i ∧ cs[i]? = some a ∧ g.isVowel a = true) ↔
      c.negated = false
  | some .consonant =>
    (∃ i a, Beside cs start stop c.side i ∧ cs[i]? = some a ∧ g.isConsonant a = true) ↔
      c.negated = false
  | some .punctuation =>
    (∀ i a, Beside cs start stop c.side i → cs[i]? = some a →
      g.isVowel a = false ∧ g.isConsonant a = false) ↔ c.negated = false
  | some (.exact v) =>
    (InRange cs start stop v.length c.side ∧
      (Borders cs start stop v c.side ↔ c.negated = false)) ∨
    (¬ InRange cs start stop v.length c.side ∧ policy = .negatable ∧ c.negated = true)

/-- All conditions of the rule are met at the span. -/
def Rule.Met (g : Grammar) (policy : Policy) (cs : List Char) (start stop : Nat)
    (r : Rule) : Prop :=
  ∀ c ∈ r.conditions, c.Met g policy cs start stop

/-! ### Neighbours and windows by places -/

theorem charAt?_eq_some {a : Char} :
    charAt? cs start stop side = some a ↔ ∃ i, Beside cs start stop side i ∧ cs[i]? = some a := by
  cases side with
  | before =>
    simp only [charAt?, Beside]
    constructor
    · intro h
      split at h
      · cases h
      · have hlt := (List.getElem?_eq_some_iff.1 h).1
        exact ⟨start - 1, ⟨hlt, by omega⟩, h⟩
    · rintro ⟨i, ⟨-, rfl⟩, ha⟩
      rw [if_neg (Nat.succ_ne_zero i), Nat.add_sub_cancel, ha]
  | after =>
    simp only [charAt?, Beside]
    constructor
    · intro h
      exact ⟨stop, ⟨(List.getElem?_eq_some_iff.1 h).1, rfl⟩, h⟩
    · rintro ⟨i, ⟨-, rfl⟩, ha⟩
      exact ha

theorem any_charAt? (q : Char → Bool) : (charAt? cs start stop side).any q = true ↔
    ∃ i a, Beside cs start stop side i ∧ cs[i]? = some a ∧ q a = true := by
  simp only [Option.any_eq_true, charAt?_eq_some]
  constructor
  · rintro ⟨a, ⟨i, hi, ha⟩, hq⟩
    exact ⟨i, a, hi, ha, hq⟩
  · rintro ⟨i, a, hi, ha, hq⟩
    exact ⟨a, ⟨i, hi, ha⟩, hq⟩

theorem all_charAt? (q : Char → Bool) : (charAt? cs start stop side).all q = true ↔
    ∀ i a, Beside cs start stop side i → cs[i]? = some a → q a = true := by
  simp only [Option.all_eq_true, charAt?_eq_some]
  constructor
  · intro h i a hi ha
    exact h a ⟨i, hi, ha⟩
  · rintro h a ⟨i, hi, ha⟩
    exact h i a hi ha

variable {lo hi : Nat}

theorem InRange.exists_window (h : InRange cs start stop len side) :
    ∃ lo hi, Window cs start stop len side lo hi := by
  cases side with
  | before => exact ⟨start - len, start, Nat.sub_add_cancel h.1, h.2, rfl⟩
  | after => exact ⟨stop, stop + len, rfl, h, rfl⟩

theorem Window.inRange (h : Window cs start stop len side lo hi) :
    InRange cs start stop len side := by
  cases side with
  | before =>
    obtain ⟨rfl, hle, rfl⟩ := h
    exact ⟨Nat.le_add_left len lo, hle⟩
  | after =>
    obtain ⟨rfl, hle, rfl⟩ := h
    exact hle

theorem Window.windowAt?_eq (h : Window cs start stop len side lo hi) :
    windowAt? cs start stop len side = some ((cs.take hi).drop lo) := by
  have hdrop : (cs.take hi).drop lo = (cs.drop lo).take len := by
    rw [List.drop_take, ← h.1, Nat.add_sub_cancel_left]
  cases side with
  | before =>
    have hin : len ≤ start ∧ start ≤ cs.length := h.inRange
    have hlo : start - len = lo := by
      have := h.1
      have := h.2.2
      omega
    rw [windowAt?, if_pos hin, hlo, hdrop]
  | after =>
    have hin : stop + len ≤ cs.length := h.inRange
    rw [windowAt?, if_pos hin, hdrop, h.2.2]

theorem windowAt?_of_not_inRange (h : ¬ InRange cs start stop len side) :
    windowAt? cs start stop len side = none := by
  cases side with
  | before => exact if_neg h
  | after => exact if_neg h

theorem Window.eq_iff_borders (h : Window cs start stop v.length side lo hi) :
    (cs.take hi).drop lo = v ↔ Borders cs start stop v side := by
  cases side with
  | before =>
    obtain ⟨rfl, hle, rfl⟩ := h
    rw [Borders, List.suffix_iff_eq_drop, List.length_take_of_le hle, Nat.add_sub_cancel, eq_comm]
  | after =>
    obtain ⟨rfl, -, rfl⟩ := h
    rw [Borders, List.prefix_iff_eq_take, List.drop_take, Nat.add_sub_cancel_left, eq_comm]

/-! ### Verdicts -/

/-- The verdict on a condition: `next?` is the character that it looks at, `window?` the text that
it compares with its value. -/
def Condition.verdict (g : Grammar) (policy : Policy) (c : Condition) (next? : Option Char)
    (window? : Option (List Char)) : Bool :=
  match c.scope? with
  | none => true
  | some .vowel => next?.any g.isVowel != c.negated
  | some .consonant => next?.any g.isConsonant != c.negated
  | some .punctuation => next?.all g.isPunctuation != c.negated
  | some (.exact value) =>
    match window? with
    | some window => (window == value) != c.negated
    | none => policy.beyondEnd c.negated

theorem Condition.holds_eq_verdict (c : Condition) :
    c.holds g policy (.ofSpan cs start stop) =
      c.verdict g policy (charAt? cs start stop c.side)
        (windowAt? cs start stop c.value.length c.side) := by
  rw [Condition.holds_ofSpan]
  unfold Condition.holdsAt Condition.verdict Condition.value
  cases c.scope? with
  | none => rfl
  | some scope =>
    cases scope with
    | exact value =>
      dsimp only
      cases windowAt? cs start stop value.length c.side with
      | some window => rfl
      | none => cases policy <;> rfl
    | _ => rfl

theorem bne_eq_true_iff {b negated : Bool} {P : Prop} (h : b = true ↔ P) :
    (b != negated) = true ↔ (P ↔ negated = false) := by
  rw [← h]
  cases b <;> cases negated <;> simp

/-- **What holds at a span** is what the condition asks of the text. -/
theorem Condition.holds_iff_met (c : Condition) :
    c.holds g policy (.ofSpan cs start stop) = true ↔ c.Met g policy cs start stop := by
  rw [Condition.holds_eq_verdict]
  unfold Condition.verdict Condition.Met Condition.value
  cases c.scope? with
  | none => simp
  | some scope =>
    cases scope with
    | vowel => exact bne_eq_true_iff (any_charAt? g.isVowel)
    | consonant => exact bne_eq_true_iff (any_charAt? g.isConsonant)
    | punctuation =>
      apply bne_eq_true_iff
      rw [all_charAt?]
      simp only [Grammar.isPunctuation, Bool.and_eq_true, Bool.not_eq_true']
    | exact v =>
      dsimp only
      by_cases hrange : InRange cs start stop v.length c.side
      · obtain ⟨lo, hi, hwindow⟩ := hrange.exists_window
        rw [hwindow.windowAt?_eq]
        dsimp only
        rw [bne_eq_true_iff (beq_iff_eq.trans hwindow.eq_iff_borders)]
        simp only [hrange, true_and, not_true_eq_false, false_and, or_false]
      · rw [windowAt?_of_not_inRange hrange]
        simp only [hrange, false_and, not_false_eq_true, true_and, false_or]
        cases policy <;> simp [Policy.beyondEnd]

theorem Rule.holds_iff_met (r : Rule) :
    r.holds g policy (.ofSpan cs start stop) = true ↔ r.Met g policy cs start stop := by
  unfold Rule.holds Rule.Met
  rw [List.all_eq_true]
  exact forall₂_congr fun c _ => c.holds_iff_met

/-! ### The first rule -/

section First

variable {holds : Rule → Bool} {r : Resolution} {i : Nat} {rule : Rule}

/-- The replacement is that of a rule exactly if this is the first one that holds. -/
theorem Resolution.IsFirst.eq_some_iff (h : r.IsFirst p holds) (hrule : p.rules[i]? = some rule) :
    r = ⟨rule.replace, some i⟩ ↔
      holds rule = true ∧ ∀ j < i, ∀ earlier, p.rules[j]? = some earlier →
        ¬ holds earlier = true := by
  have hfirst : IsFirst p holds ⟨rule.replace, some i⟩ ↔
      holds rule = true ∧ ∀ j < i, ∀ earlier, p.rules[j]? = some earlier →
        ¬ holds earlier = true := by
    simp only [IsFirst, hrule, Option.some.injEq, exists_eq_left', true_and, Bool.not_eq_true]
  rw [← hfirst]
  constructor
  · rintro rfl
    exact h
  · exact h.unique

/-- The replacement is the pattern's own exactly if no rule holds. -/
theorem Resolution.IsFirst.eq_none_iff (h : r.IsFirst p holds) :
    r = ⟨p.replace, none⟩ ↔ ∀ rule ∈ p.rules, ¬ holds rule = true := by
  have hnone : IsFirst p holds ⟨p.replace, none⟩ ↔ ∀ rule ∈ p.rules, ¬ holds rule = true := by
    simp only [IsFirst, true_and, Bool.not_eq_true]
  rw [← hnone]
  constructor
  · rintro rfl
    exact h
  · exact h.unique

end First

/-! ## Places of 64 bits -/

namespace Place

variable {a b d s : UInt64}

/-- The difference, unless it would wrap. -/
def sub? (a b : UInt64) : Option UInt64 := if b ≤ a then some (a - b) else none

/-- The sum, unless it would wrap; then it is below its parts. -/
def add? (a b : UInt64) : Option UInt64 := if a ≤ a + b then some (a + b) else none

theorem sub?_eq_some : sub? a b = some d ↔ d.toNat + b.toNat = a.toNat := by
  unfold sub?
  constructor
  · intro h
    split at h
    · rename_i hle
      cases h
      rw [UInt64.toNat_sub_of_le _ _ hle]
      exact Nat.sub_add_cancel (UInt64.le_iff_toNat_le.1 hle)
    · cases h
  · intro h
    have hle : b ≤ a := by
      rw [UInt64.le_iff_toNat_le]
      omega
    rw [if_pos hle, Option.some.injEq, ← UInt64.toNat_inj, UInt64.toNat_sub_of_le _ _ hle]
    omega

theorem add?_eq_some : add? a b = some s ↔ s.toNat = a.toNat + b.toNat := by
  have ha := a.toNat_lt
  have hb := b.toNat_lt
  have hs := s.toNat_lt
  -- a sum that wraps loses `2 ^ 64`, which is more than `b`
  have hle : a ≤ a + b ↔ a.toNat + b.toNat < 2 ^ 64 := by
    rw [UInt64.le_iff_toNat_le, UInt64.toNat_add]
    omega
  unfold add?
  constructor
  · intro h
    split at h
    · rename_i hwrap
      cases h
      rw [UInt64.toNat_add]
      exact Nat.mod_eq_of_lt (hle.1 hwrap)
    · cases h
  · intro h
    rw [if_pos (hle.2 (by omega)), Option.some.injEq, ← UInt64.toNat_inj, UInt64.toNat_add]
    omega

end Place

/-- A span of a text, its places in 64 bits. -/
structure Span where
  start : UInt64
  stop : UInt64
  deriving DecidableEq, Repr

namespace Span

variable {s : Span} {i lo hi : UInt64}

/-- The place next to the span, if it lies in the text. -/
def beside? (s : Span) (cs : List Char) : Side → Option UInt64
  | .before => (Place.sub? s.start 1).filter (·.toNat < cs.length)
  | .after => (some s.stop).filter (·.toNat < cs.length)

/-- The places from `lo` to `hi`, if they lie in the text. -/
def within? (cs : List Char) (lo hi : UInt64) : Option (UInt64 × UInt64) :=
  if lo ≤ hi ∧ hi.toNat ≤ cs.length then some (lo, hi) else none

/-- The places where the `len` characters next to the span begin and end, if they lie in the
text. -/
def window? (s : Span) (cs : List Char) (len : UInt64) : Side → Option (UInt64 × UInt64)
  | .before => (Place.sub? s.start len).bind fun lo => within? cs lo s.start
  | .after => (Place.add? s.stop len).bind fun hi => within? cs s.stop hi

/-- The character next to the span. -/
def char? (s : Span) (cs : List Char) (side : Side) : Option Char :=
  (s.beside? cs side).bind (cs[·.toNat]?)

/-- The `len` characters next to the span. -/
def text? (s : Span) (cs : List Char) (len : UInt64) (side : Side) : Option (List Char) :=
  (s.window? cs len side).map fun (lo, hi) => (cs.take hi.toNat).drop lo.toNat

/-- **No place outside the text, and none that has wrapped.** The place next to a span is the one of
exact arithmetic. -/
theorem beside?_eq_some :
    s.beside? cs side = some i ↔ Beside cs s.start.toNat s.stop.toNat side i.toNat := by
  cases side with
  | before =>
    simp only [beside?, Beside, Option.filter_eq_some_iff, Place.sub?_eq_some, UInt64.toNat_one,
      decide_eq_true_eq]
    exact and_comm
  | after =>
    simp only [beside?, Beside, Option.filter_eq_some_iff, Option.some.injEq, decide_eq_true_eq,
      UInt64.toNat_inj]
    rw [and_comm, eq_comm]

theorem within?_eq_some {ends : UInt64 × UInt64} : within? cs lo hi = some ends ↔
    lo.toNat ≤ hi.toNat ∧ hi.toNat ≤ cs.length ∧ ends = (lo, hi) := by
  rw [within?, Option.ite_none_right_eq_some, UInt64.le_iff_toNat_le, Option.some.injEq, and_assoc,
    eq_comm (a := ends)]

/-- The same of the characters next to a span, however many. -/
theorem window?_eq_some {len : UInt64} :
    s.window? cs len side = some (lo, hi) ↔
      Window cs s.start.toNat s.stop.toNat len.toNat side lo.toNat hi.toNat := by
  cases side with
  | before =>
    simp only [window?, Window, Option.bind_eq_some_iff, Place.sub?_eq_some, within?_eq_some,
      Prod.mk.injEq]
    constructor
    · rintro ⟨lo', hsub, -, hle, rfl, rfl⟩
      exact ⟨hsub, hle, rfl⟩
    · rintro ⟨hsub, hle, hstart⟩
      rw [UInt64.toNat_inj] at hstart
      subst hstart
      exact ⟨lo, hsub, by omega, hle, rfl, rfl⟩
  | after =>
    simp only [window?, Window, Option.bind_eq_some_iff, Place.add?_eq_some, within?_eq_some,
      Prod.mk.injEq]
    constructor
    · rintro ⟨hi', hadd, -, hle, rfl, rfl⟩
      exact ⟨hadd.symm, hle, rfl⟩
    · rintro ⟨hadd, hle, hstop⟩
      rw [UInt64.toNat_inj] at hstop
      subst hstop
      exact ⟨hi, hadd.symm, by omega, hle, rfl, rfl⟩

theorem char?_eq_charAt? : s.char? cs side = charAt? cs s.start.toNat s.stop.toNat side := by
  refine Option.ext fun a => ?_
  rw [charAt?_eq_some, char?, Option.bind_eq_some_iff]
  constructor
  · rintro ⟨i, hi, ha⟩
    exact ⟨i.toNat, beside?_eq_some.1 hi, ha⟩
  · rintro ⟨i, hi, ha⟩
    -- the place is one of the span's, or next to one
    have hlt : i < UInt64.size := by
      have hstart := s.start.toNat_lt_size
      have hstop := s.stop.toNat_lt_size
      cases side with
      | before =>
        have := hi.2
        omega
      | after =>
        have := hi.2
        omega
    have htoNat := UInt64.toNat_ofNat_of_lt' hlt
    refine ⟨UInt64.ofNat i, beside?_eq_some.2 ?_, ?_⟩
    · rwa [htoNat]
    · rwa [htoNat]

/-- Where texts are no longer than places reach, the sum that would wrap lies outside the text. -/
theorem text?_eq_windowAt? (hcs : cs.length < UInt64.size) (hlen : len < UInt64.size) :
    s.text? cs (UInt64.ofNat len) side =
      windowAt? cs s.start.toNat s.stop.toNat len side := by
  have htoNat := UInt64.toNat_ofNat_of_lt' hlen
  by_cases hrange : InRange cs s.start.toNat s.stop.toNat len side
  · -- both ends lie in the text, and so within the places of 64 bits
    obtain ⟨lo, hi, hwindow⟩ := hrange.exists_window
    have hsum := hwindow.1
    have hhi := hwindow.2.1
    have hloNat : (UInt64.ofNat lo).toNat = lo := UInt64.toNat_ofNat_of_lt' (by omega)
    have hhiNat : (UInt64.ofNat hi).toNat = hi := UInt64.toNat_ofNat_of_lt' (by omega)
    have hends : s.window? cs (UInt64.ofNat len) side =
        some (UInt64.ofNat lo, UInt64.ofNat hi) := by
      rw [window?_eq_some, htoNat, hloNat, hhiNat]
      exact hwindow
    rw [text?, hends, Option.map_some, hwindow.windowAt?_eq]
    dsimp only
    rw [hloNat, hhiNat]
  · have hnone : s.window? cs (UInt64.ofNat len) side = none := by
      refine Option.eq_none_iff_forall_ne_some.2 ?_
      rintro ⟨lo, hi⟩ hsome
      rw [window?_eq_some, htoNat] at hsome
      exact hrange hsome.inRange
    rw [text?, hnone, Option.map_none, windowAt?_of_not_inRange hrange]

end Span

/-! ## The replacement -/

/-- The condition holds beside the span, judged with places of 64 bits. -/
def Condition.holdsIn (g : Grammar) (policy : Policy) (cs : List Char) (s : Span)
    (c : Condition) : Bool :=
  c.verdict g policy (s.char? cs c.side) (s.text? cs (UInt64.ofNat c.value.length) c.side)

/-- The replacement of a match at the span, its rules judged with places of 64 bits. -/
def Pattern.resolveIn (g : Grammar) (policy : Policy) (cs : List Char) (s : Span) (p : Pattern) :
    Resolution :=
  match p.rules.zipIdx.find? fun r => r.1.conditions.all (·.holdsIn g policy cs s) with
  | some (r, i) => ⟨r.replace, some i⟩
  | none => ⟨p.replace, none⟩

theorem Condition.holdsIn_eq {s : Span} (hcs : cs.length < UInt64.size)
    (hc : c.value.length < UInt64.size) :
    c.holdsIn g policy cs s = c.holds g policy (.ofSpan cs s.start.toNat s.stop.toNat) := by
  rw [Condition.holdsIn, Condition.holds_eq_verdict, Span.char?_eq_charAt?,
    Span.text?_eq_windowAt? hcs hc]

theorem Pattern.resolveIn_eq {s : Span} (hcs : cs.length < UInt64.size)
    (hp : ∀ r ∈ p.rules, ∀ c ∈ r.conditions, c.value.length < UInt64.size) :
    p.resolveIn g policy cs s = p.resolve g policy (.ofSpan cs s.start.toNat s.stop.toNat) := by
  have hrules : (p.rules.zipIdx.find? fun r => r.1.conditions.all (·.holdsIn g policy cs s)) =
      p.rules.zipIdx.find? fun r =>
        r.1.holds g policy (.ofSpan cs s.start.toNat s.stop.toNat) := by
    apply List.find?_congr
    intro r hr
    have hmem : r.1 ∈ p.rules := List.fst_mem_of_mem_zipIdx hr
    rw [Bool.eq_iff_iff]
    simp only [Rule.holds, List.all_eq_true]
    refine forall₂_congr fun c hc => ?_
    rw [Condition.holdsIn_eq hcs (hp r.1 hmem c hc)]
  rw [Pattern.resolveIn, hrules]
  exact (p.resolve_eq g policy _).symm

/-- **The replacement at any span.** It is that of the first rule of which all conditions are met,
and the pattern's own exactly if there is none. With places of 64 bits it is the same, whatever the
span: the places that conditions look at lie in the text and are those of exact arithmetic. -/
theorem resolve_span (g : Grammar) (policy : Policy) (p : Pattern) (cs : List Char) :
    (∀ start stop,
      (∀ i rule, p.rules[i]? = some rule →
        (p.resolve g policy (.ofSpan cs start stop) = ⟨rule.replace, some i⟩ ↔
          rule.Met g policy cs start stop ∧
            ∀ j < i, ∀ earlier, p.rules[j]? = some earlier →
              ¬ earlier.Met g policy cs start stop)) ∧
      (p.resolve g policy (.ofSpan cs start stop) = ⟨p.replace, none⟩ ↔
        ∀ rule ∈ p.rules, ¬ rule.Met g policy cs start stop)) ∧
    (cs.length < UInt64.size →
      (∀ r ∈ p.rules, ∀ c ∈ r.conditions, c.value.length < UInt64.size) →
      ∀ s : Span,
        p.resolveIn g policy cs s =
          p.resolve g policy (.ofSpan cs s.start.toNat s.stop.toNat) ∧
        ∀ side,
          (∀ i, s.beside? cs side = some i ↔
            Beside cs s.start.toNat s.stop.toNat side i.toNat) ∧
          ∀ len lo hi, s.window? cs len side = some (lo, hi) ↔
            Window cs s.start.toNat s.stop.toNat len.toNat side lo.toNat hi.toNat) := by
  constructor
  · intro start stop
    have hfirst := p.resolve_isFirst g policy (.ofSpan cs start stop)
    constructor
    · intro i rule hrule
      rw [hfirst.eq_some_iff hrule]
      simp only [Rule.holds_iff_met]
    · rw [hfirst.eq_none_iff]
      simp only [Rule.holds_iff_met]
  · intro hcs hp s
    refine ⟨Pattern.resolveIn_eq hcs hp, ?_⟩
    intro side
    exact ⟨fun _ => Span.beside?_eq_some, fun _ _ _ => Span.window?_eq_some⟩

/-- A pattern with comparisons on both sides, one of them with two characters. -/
def bordered : Pattern := ⟨"a".toList, "0".toList, some [
  ⟨[⟨.before, some (.exact "k".toList), true⟩, ⟨.after, some .punctuation, false⟩], "1".toList⟩,
  ⟨[⟨.after, some (.exact "zz".toList), true⟩], "2".toList⟩]⟩

/-- At its place in the text the pattern takes the second rule. Far outside, where a place two
further on would wrap, it takes the first one, and under the strict policy none. -/
theorem bordered_resolve_span :
    bordered.resolve Transliterator.overlapping .negatable (.ofSpan "ka".toList 1 2) =
      ⟨"2".toList, some 1⟩ ∧
    Rule.Met Transliterator.overlapping .negatable "ka".toList 1 2
      ⟨[⟨.after, some (.exact "zz".toList), true⟩], "2".toList⟩ ∧
    bordered.resolveIn Transliterator.overlapping .negatable "ka".toList
      ⟨0xffffffffffffffff, 0xffffffffffffffff⟩ = ⟨"1".toList, some 0⟩ ∧
    bordered.resolveIn Transliterator.overlapping .strict "ka".toList
      ⟨0xffffffffffffffff, 0xffffffffffffffff⟩ = ⟨"0".toList, none⟩ := by
  have hinside : bordered.resolve Transliterator.overlapping .negatable
      (.ofSpan "ka".toList 1 2) = ⟨"2".toList, some 1⟩ := by decide +kernel
  have hcs : "ka".toList.length < UInt64.size := by decide
  have hvalues : ∀ r ∈ bordered.rules, ∀ c ∈ r.conditions, c.value.length < UInt64.size := by
    decide
  obtain ⟨hrules, -⟩ :=
    (resolve_span Transliterator.overlapping .negatable bordered "ka".toList).1 1 2
  refine ⟨hinside, ((hrules 1 _ rfl).1 hinside).1, ?_, ?_⟩
  · rw [((resolve_span _ _ bordered "ka".toList).2 hcs hvalues _).1]
    decide +kernel
  · rw [((resolve_span _ _ bordered "ka".toList).2 hcs hvalues _).1]
    decide +kernel

end Translit
