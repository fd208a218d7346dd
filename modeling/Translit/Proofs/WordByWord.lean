import Translit.Grammar.Phonetic
import Translit.Proofs.Comparisons
import Translit.Proofs.Cutting

/-!
# Conversion word by word

A character that no pattern finds and no condition compares, and that counts as punctuation as the
ends of a text do, separates words: what stands on one side of it does not matter on the other.

* `Grammar.Separates`: what a separator has to be;
* `Condition.holds_beyond`: a condition does not see beyond a separator;
* `convert_append_separator`: the conversion of two parts of a text;
* `convert_intercalate`: the conversion of a list of words, and that the phonetic grammar is
  separated by blanks and by line ends.
-/

namespace Translit

/-- The character stands between words. -/
structure Grammar.Separates (g : Grammar) (b : Char) : Prop where
  /-- It is not changed where case does not matter. -/
  normal : g.normalize [b] = [b]
  /-- It counts as punctuation. -/
  punctuation : g.isPunctuation b = true
  /-- No pattern finds it. -/
  not_found : ∀ p ∈ g.patterns, b ∉ p.find
  /-- No condition compares it. -/
  not_compared : ∀ c ∈ g.conditions, b ∉ c.value

instance (g : Grammar) (b : Char) : Decidable (g.Separates b) :=
  decidable_of_iff
    (g.normalize [b] = [b] ∧ g.isPunctuation b = true ∧ (∀ p ∈ g.patterns, b ∉ p.find) ∧
      ∀ c ∈ g.conditions, b ∉ c.value)
    ⟨fun ⟨h₁, h₂, h₃, h₄⟩ => ⟨h₁, h₂, h₃, h₄⟩, fun ⟨h₁, h₂, h₃, h₄⟩ => ⟨h₁, h₂, h₃, h₄⟩⟩

variable {g : Grammar} {policy : Policy} {b : Char} {s s' : Surroundings} {x y : List Char}

/-! ## Conditions beside a separator -/

/-- A comparison that a separator cuts off runs over the end of the text in front of it, or else
meets the separator. -/
theorem compare?_beyond {side : Side} {value : List Char} (hv : b ∉ value)
    (h : s.on? side = some x) (h' : s'.on? side = some (x ++ b :: y)) :
    s'.compare? side value = s.compare? side value ∨
      s.compare? side value = none ∧ s'.compare? side value = some false := by
  simp only [Surroundings.compare?, h, h']
  by_cases hx : value.length ≤ x.length
  · left
    rw [if_pos hx, if_pos (by simp only [List.length_append]; omega),
      List.take_append_of_le_length hx]
  · rw [if_neg hx]
    by_cases hxy : value.length ≤ (x ++ b :: y).length
    · right
      refine ⟨rfl, ?_⟩
      have hmem : b ∈ (x ++ b :: y).take value.length := by
        rw [List.take_append,
          show value.length - x.length = value.length - x.length - 1 + 1 by omega,
          List.take_succ_cons]
        simp
      rw [if_pos hxy, Option.some.injEq, beq_eq_false_iff_ne]
      intro he
      rw [he] at hmem
      cases side <;> simp [Side.facing] at hmem <;> exact hv hmem
    · left
      rw [if_neg hxy]

/-- **A condition does not see beyond a separator.** Where it would have to, the policy decides: a
comparison with the separator fails as one beyond the end does, unless it is negated and the
policy strict. -/
theorem Condition.holds_beyond {c : Condition} (hb : g.isPunctuation b = true) (hv : b ∉ c.value)
    (hneg : policy = .negatable ∨ c.negatesText = false)
    (h : s.on? c.side = some x) (h' : s'.on? c.side = some (x ++ b :: y)) :
    c.holds g policy s' = c.holds g policy s := by
  have hneighbour : s.neighbour? c.side = x.head? := by simp [Surroundings.neighbour?, h]
  have hneighbour' : s'.neighbour? c.side = some (x.head?.getD b) := by
    simp [Surroundings.neighbour?, h']
  have hvowel : g.isVowel b = false := by simp_all [Grammar.isPunctuation]
  have hconsonant : g.isConsonant b = false := by simp_all [Grammar.isPunctuation]
  unfold Condition.holds
  cases hscope : c.scope? with
  | none => rfl
  | some scope =>
    cases scope with
    | vowel => cases hx : x.head? <;> simp [hneighbour, hneighbour', hx, hvowel]
    | consonant => cases hx : x.head? <;> simp [hneighbour, hneighbour', hx, hconsonant]
    | punctuation => cases hx : x.head? <;> simp [hneighbour, hneighbour', hx, hb]
    | exact value =>
      rw [value_of_scope hscope] at hv
      rw [negatesText_of_scope hscope] at hneg
      rcases compare?_beyond hv h h' with he | ⟨he, he'⟩
      · simp only [he]
      · rcases hneg with rfl | hneg
        · simp [he, he', Policy.beyondEnd]
        · cases policy <;> simp [he, he', Policy.beyondEnd, hneg]

/-- Beside a separator or far from it, the replacement is the same. -/
theorem resolve_beyond {p : Pattern} (hb : g.Separates b) (hp : p ∈ g.patterns)
    (hneg : policy = .negatable ∨ ∀ c ∈ g.conditions, c.negatesText = false)
    (h : ∀ side, s'.on? side = s.on? side ∨
      ∃ x y, s.on? side = some x ∧ s'.on? side = some (x ++ b :: y)) :
    p.resolve g policy s' = p.resolve g policy s := by
  refine Pattern.resolve_congr fun r hr c hc => ?_
  have hmem := mem_conditions hp hr hc
  rcases h c.side with he | ⟨x, y, he, he'⟩
  · exact Condition.holds_congr he
  · exact Condition.holds_beyond hb.punctuation (hb.not_compared c hmem)
      (hneg.imp_right fun hn => hn c hmem) he he'

/-! ## The scan beside a separator -/

/-- What does not hold the separator begins in front of it only if it also ends there. -/
theorem prefix_of_prefix_append {w : List Char} (hw : b ∉ w) (h : w <+: x ++ b :: y) : w <+: x := by
  obtain ⟨t, ht⟩ := h
  rcases List.append_eq_append_iff.1 ht with ⟨u, hx, -⟩ | ⟨u, hwu, hbu⟩
  · exact ⟨u, hx.symm⟩
  · cases u with
    | nil => exact ⟨[], by rw [hwu]; simp⟩
    | cons c u =>
      obtain ⟨rfl, -⟩ := List.cons.inj hbu
      exact absurd (by rw [hwu]; simp) hw

variable {rest before v : List Char} {pieces : List Placed}

namespace Transliterator

/-- No match reaches over a separator. -/
theorem longest_append_separator (policy : Policy) (hb : g.Separates b)
    (rest v : List Char) :
    (ofGrammar g policy).trie.longest (rest ++ b :: v) =
      (ofGrammar g policy).trie.longest rest := by
  have hfind : ∀ w ∈ g.patterns.map (·.find), w <+: rest ++ b :: v → w <+: rest := by
    intro w hw hpre
    obtain ⟨p, hp, rfl⟩ := List.mem_map.1 hw
    exact prefix_of_prefix_append (hb.not_found p hp) hpre
  exact Trie.longest_build_congr fun w hw =>
    ⟨hfind w hw, fun hpre => hpre.trans (List.prefix_append _ _)⟩

/-- **Behind a separator** the text becomes what it becomes on its own. -/
theorem output_behind (hb : g.Separates b)
    (hneg : policy = .negatable ∨ ∀ c ∈ g.conditions, c.negatesText = false)
    (h : (ofGrammar g policy).trie.Cuts before rest pieces) (y : List Char) :
    ∃ pieces', (ofGrammar g policy).trie.Cuts (before ++ b :: y) rest pieces' ∧
      pieces'.flatMap (ofGrammar g policy).output =
        pieces.flatMap (ofGrammar g policy).output := by
  induction h with
  | done => exact ⟨[], .done, rfl⟩
  | @char before cs c pieces none _ ih =>
    obtain ⟨pieces', hcuts, hout⟩ := ih
    refine ⟨_, .char none hcuts, ?_⟩
    rw [List.flatMap_cons, List.flatMap_cons, hout, output_ofChar, output_ofChar]
  | @word before w after i pieces found _ ih =>
    obtain ⟨pieces', hcuts, hout⟩ := ih
    obtain ⟨p, hp, -⟩ := exists_pattern_of_found found
    rw [List.append_assoc] at hcuts
    refine ⟨_, .word found hcuts, ?_⟩
    rw [List.flatMap_cons, List.flatMap_cons, hout, output_ofWord _ _ _ hp, output_ofWord _ _ _ hp,
      resolve_beyond hb (List.mem_of_getElem? hp) hneg]
    intro side
    cases side with
    | before => exact .inr ⟨before, y, rfl, rfl⟩
    | after => exact .inl rfl

/-- **In front of a separator** the text becomes what it becomes on its own, then the separator
stays, and the rest is cut as it is. -/
theorem output_before (hb : g.Separates b)
    (hneg : policy = .negatable ∨ ∀ c ∈ g.conditions, c.negatesText = false)
    (h : (ofGrammar g policy).trie.Cuts before rest pieces) {v : List Char}
    {more : List Placed}
    (hmore : (ofGrammar g policy).trie.Cuts (b :: (rest.reverse ++ before)) v more) :
    ∃ pieces', (ofGrammar g policy).trie.Cuts before (rest ++ b :: v) pieces' ∧
      pieces'.flatMap (ofGrammar g policy).output =
        pieces.flatMap (ofGrammar g policy).output ++
          b :: more.flatMap (ofGrammar g policy).output := by
  induction h with
  | done =>
    have hnone : (ofGrammar g policy).trie.longest (b :: v) = none := by
      have := longest_append_separator policy hb [] v
      rw [List.nil_append] at this
      rw [this]
      rfl
    exact ⟨_, .char hnone hmore, rfl⟩
  | @char before cs c pieces none _ ih =>
    obtain ⟨pieces', hcuts, hout⟩ := ih (by simpa using hmore)
    have hnone : (ofGrammar g policy).trie.longest (c :: (cs ++ b :: v)) = .none := by
      rw [← List.cons_append, longest_append_separator policy hb, none]
    refine ⟨_, .char hnone hcuts, ?_⟩
    rw [List.flatMap_cons, List.flatMap_cons, hout, output_ofChar, output_ofChar,
      List.append_assoc]
  | @word before w after i pieces found _ ih =>
    obtain ⟨pieces', hcuts, hout⟩ := ih (by simpa using hmore)
    obtain ⟨p, hp, -⟩ := exists_pattern_of_found found
    have hfound : (ofGrammar g policy).trie.longest (w ++ (after ++ b :: v)) =
        some ⟨i, w.length⟩ := by
      rw [← List.append_assoc, longest_append_separator policy hb, found]
    have hcut := Trie.Cuts.word hfound hcuts
    rw [← List.append_assoc] at hcut
    refine ⟨_, hcut, ?_⟩
    rw [List.flatMap_cons, List.flatMap_cons, hout, output_ofWord _ _ _ hp, output_ofWord _ _ _ hp,
      resolve_beyond hb (List.mem_of_getElem? hp) hneg, List.append_assoc]
    intro side
    cases side with
    | before => exact .inl rfl
    | after => exact .inr ⟨after, v, rfl, rfl⟩

/-! ## Words -/

theorem normalize_append_separator (hb : g.Separates b) (u v : List Char) :
    g.normalize (u ++ b :: v) = g.normalize u ++ b :: g.normalize v := by
  have hb' : g.normalize (b :: v) = b :: g.normalize v := by
    rw [← List.singleton_append, Grammar.normalize, List.flatMap_append, ← Grammar.normalize,
      hb.normal]
    rfl
  rw [Grammar.normalize, List.flatMap_append, ← Grammar.normalize, ← Grammar.normalize, hb']

/-- **The parts of a text on both sides of a separator are converted on their own.** -/
theorem convert_append_separator (hb : g.Separates b)
    (hneg : policy = .negatable ∨ ∀ c ∈ g.conditions, c.negatesText = false) (u v : List Char) :
    (ofGrammar g policy).convert (u ++ b :: v) =
      (ofGrammar g policy).convert u ++ b :: (ofGrammar g policy).convert v := by
  have hu := (ofGrammar g policy).cuts_tokens (g.normalize u)
  have hv := (ofGrammar g policy).cuts_tokens (g.normalize v)
  obtain ⟨more, hmore, hout⟩ := output_behind hb hneg hv (g.normalize u).reverse
  obtain ⟨pieces, hcuts, hout'⟩ := output_before hb hneg hu (by simpa using hmore)
  show ((ofGrammar g policy).tokens (g.normalize (u ++ b :: v))).flatMap _ = _
  rw [normalize_append_separator hb, tokens_eq_of_cuts hcuts, hout', hout]
  rfl

/-- The words of the phonetic grammar stand between blanks and between line ends. -/
theorem embedded_separates :
    ∃ g, Grammar.embedded = .ok g ∧ g.Separates ' ' ∧ g.Separates '\n' := by
  have h : (Grammar.embedded.toOption.any fun g =>
      decide (g.Separates ' ') && decide (g.Separates '\n')) = true := by decide +kernel
  cases he : Grammar.embedded with
  | error e => simp [he, Except.toOption] at h
  | ok g => exact ⟨g, rfl, by simpa [he, Except.toOption] using h⟩

/-- The law for one grammar, one policy and one separator. -/
theorem convert_words (hb : g.Separates b)
    (hneg : policy = .negatable ∨ ∀ c ∈ g.conditions, c.negatesText = false)
    (words : List (List Char)) :
    (ofGrammar g policy).convert ([b].intercalate words) =
      [b].intercalate (words.map (ofGrammar g policy).convert) := by
  induction words with
  | nil => rfl
  | cons u words ih =>
    cases words with
    | nil => simp
    | cons v words =>
      rw [List.map_cons] at ih
      rw [List.map_cons, List.map_cons, List.intercalate_cons_cons, List.intercalate_cons_cons,
        ← ih, List.append_assoc, List.append_assoc, List.singleton_append, List.singleton_append,
        convert_append_separator hb hneg]

/-- **A text is converted word by word**, unless the policy is strict and a rule asks that a text
is not there. The phonetic grammar has its words between blanks and between line ends. -/
theorem convert_intercalate :
    (∀ (g : Grammar) (policy : Policy) (b : Char), g.Separates b →
      (policy = .negatable ∨ ∀ c ∈ g.conditions, c.negatesText = false) →
      ∀ words : List (List Char), (ofGrammar g policy).convert ([b].intercalate words) =
        [b].intercalate (words.map (ofGrammar g policy).convert)) ∧
    ∃ g, Grammar.embedded = .ok g ∧ ∀ b ∈ [' ', '\n'], ∀ words : List (List Char),
      (ofGrammar g .default).convert ([b].intercalate words) =
        [b].intercalate (words.map (ofGrammar g .default).convert) := by
  refine ⟨fun g policy b hb hneg words => convert_words hb hneg words, ?_⟩
  obtain ⟨g, hg, hblank, hline⟩ := embedded_separates
  refine ⟨g, hg, fun b hb words => convert_words ?_ (.inl rfl) words⟩
  rcases List.mem_cons.1 hb with rfl | hb
  · exact hblank
  · rw [List.mem_singleton.1 hb]
    exact hline

/-- A grammar with a rule that asks on both sides of a match that a text is not there. -/
def guarded : Grammar where
  vowels := .ofText "a".toList
  consonants := .ofText "bk".toList
  caseSensitive := .ofText "k".toList
  patterns := [
    ⟨"k".toList, "K".toList, some [
      ⟨[⟨.before, some (.exact "ab".toList), true⟩, ⟨.after, some (.exact "ba".toList), true⟩],
        "x".toList⟩]⟩]
  disjoint := LetterClass.common?_eq_none_iff.1 (by decide)

/-- Its words between commas: the second letter of each is beside the same text, then beside
another. -/
theorem guarded_convert_words :
    guarded.Separates ',' ∧
    (ofGrammar guarded .negatable).convert ([','].intercalate ["abk".toList, "kb".toList]) =
      "abK,xb".toList := by
  have hb : guarded.Separates ',' := by decide
  refine ⟨hb, ?_⟩
  rw [convert_intercalate.1 guarded .negatable ',' hb (.inl rfl)]
  decide +kernel

end Transliterator

end Translit
