import Translit.Proofs.Account
import Translit.Proofs.Comparisons

/-!
# How far a conversion looks ahead

A step is decided by the text up to where the longest match from its start and the longest
comparison behind its end would reach. What is typed behind that does not change it.

* `Grammar.reach`, `Grammar.lookAhead`: how far that is, as far as the grammar says;
* `Segment.Settled`: a step that the first characters of a text decide;
* `longest_of_take`, `resolve_of_take`: what a match and its replacement depend on;
* `filter_settled_congr`: the settled steps of two texts with a common beginning;
* `explain_settled`: they come first, and are the same in both.
-/

namespace Translit

/-- How far a match reaches at most. -/
def Grammar.reach (g : Grammar) : Nat := maxLength (g.patterns.map (·.find))

/-- How far behind a match a condition looks at most; one that asks for the class of the next
character looks as far as that. -/
def Grammar.lookAhead (g : Grammar) : Nat :=
  max 1 (maxLength ((g.conditions.filter (·.side = .after)).map (·.value)))

/-- The first `k` characters of a text decide the step. -/
def Segment.Settled (g : Grammar) (k : Nat) (s : Segment) : Prop :=
  s.start + g.reach ≤ k ∧ s.stop + g.lookAhead ≤ k

instance (g : Grammar) (k : Nat) : DecidablePred (Segment.Settled g k) := fun s => by
  unfold Segment.Settled
  infer_instance

variable {g : Grammar} {policy : Policy} {before rest rest' after after' w : List Char}
  {c : Condition} {p : Pattern} {k n : Nat} {pieces pieces' : List Placed}

theorem length_le_reach (hw : w ∈ g.patterns.map (·.find)) : w.length ≤ g.reach :=
  length_le_maxLength hw

theorem lookAhead_pos (g : Grammar) : 0 < g.lookAhead :=
  Nat.lt_of_lt_of_le Nat.one_pos (Nat.le_max_left _ _)

theorem value_length_le_lookAhead (hc : c ∈ g.conditions) (hside : c.side = .after) :
    c.value.length ≤ g.lookAhead := by
  refine Nat.le_trans (length_le_maxLength ?_) (Nat.le_max_right _ _)
  exact List.mem_map_of_mem (List.mem_filter.2 ⟨hc, by simpa using hside⟩)

/-! ## Texts with a common beginning -/

theorem prefix_congr_of_take (hw : w.length ≤ n) (h : rest.take n = rest'.take n) :
    w <+: rest ↔ w <+: rest' := by
  have htake : ∀ cs : List Char, w <+: cs.take n ↔ w <+: cs := by
    intro cs
    rw [List.prefix_take_iff]
    exact and_iff_left hw
  rw [← htake rest, h, htake]

/-- What lies within the common beginning can be cut off on both sides. -/
theorem exists_append_of_take (h : (w ++ after).take n = rest'.take n) (hw : w.length ≤ n) :
    ∃ after', rest' = w ++ after' ∧ after.take (n - w.length) = after'.take (n - w.length) := by
  obtain ⟨after', rfl⟩ := (prefix_congr_of_take hw h).1 (List.prefix_append w after)
  refine ⟨after', rfl, ?_⟩
  rw [List.take_append, List.take_append] at h
  exact List.append_cancel_left h

namespace Transliterator

/-- The next match depends on no more of the text than it could reach. -/
theorem longest_of_take (policy : Policy) (hn : g.reach ≤ n) (h : rest.take n = rest'.take n) :
    (ofGrammar g policy).trie.longest rest = (ofGrammar g policy).trie.longest rest' :=
  Trie.longest_build_congr fun _ hw =>
    prefix_congr_of_take (Nat.le_trans (length_le_reach hw) hn) h

/-- The replacement depends on no more of the text behind the match than conditions look at. -/
theorem resolve_of_take (hp : p ∈ g.patterns) (hn : g.lookAhead ≤ n)
    (h : after.take n = after'.take n) (hlen : n ≤ after.length) (hlen' : n ≤ after'.length) :
    p.resolve g policy ⟨some before, some after⟩ =
      p.resolve g policy ⟨some before, some after'⟩ := by
  refine Pattern.resolve_congr fun r hr c hc => ?_
  cases hside : c.side with
  | before => exact Condition.holds_congr (by rw [hside]; rfl)
  | after =>
    have hv := value_length_le_lookAhead (mem_conditions hp hr hc) hside
    refine Condition.holds_of_take (Nat.lt_of_lt_of_le (lookAhead_pos g) hn)
      (Nat.le_trans hv hn) ?_ ?_ hlen hlen' h
    · rw [hside]; rfl
    · rw [hside]; rfl

/-! ## Settled steps -/

/-- Behind a place that is not settled no step is. -/
theorem filter_settled_eq_nil (h : (ofGrammar g policy).trie.Cuts before rest pieces)
    (hk : k < before.length + g.reach ∨ k < before.length + g.lookAhead) :
    (pieces.map (ofGrammar g policy).segment).filter (Segment.Settled g k) = [] := by
  refine List.filter_eq_nil_iff.2 fun s hs hsettled => ?_
  obtain ⟨hstart, hstop⟩ := of_decide_eq_true hsettled
  have := (tile_segments h).mem_bounds hs
  omega

/-- **Two texts with a common beginning.** What is in front of the two rests is the same, and so
are the steps that the beginning settles. -/
theorem filter_settled_congr (h : (ofGrammar g policy).trie.Cuts before rest pieces)
    (h' : (ofGrammar g policy).trie.Cuts before rest' pieces')
    (htake : rest.take (k - before.length) = rest'.take (k - before.length))
    (hlen : k ≤ before.length + rest.length) (hlen' : k ≤ before.length + rest'.length) :
    (pieces.map (ofGrammar g policy).segment).filter (Segment.Settled g k) =
      (pieces'.map (ofGrammar g policy).segment).filter (Segment.Settled g k) := by
  induction h generalizing rest' pieces' with
  | @done before =>
    have := lookAhead_pos g
    rw [List.length_nil] at hlen
    have hk : k < before.length + g.reach ∨ k < before.length + g.lookAhead := .inr (by omega)
    rw [filter_settled_eq_nil .done hk, filter_settled_eq_nil h' hk]
  | @char before cs c pieces none tail ih =>
    by_cases hk : k < before.length + g.reach ∨ k < before.length + g.lookAhead
    · rw [filter_settled_eq_nil (.char none tail) hk, filter_settled_eq_nil h' hk]
    have := lookAhead_pos g
    have hcons : ([c] ++ cs).take (k - before.length) = rest'.take (k - before.length) := htake
    obtain ⟨cs', rfl, htake'⟩ := exists_append_of_take hcons
      (by rw [List.length_singleton]; omega)
    rw [longest_of_take policy (by omega) htake] at none
    obtain ⟨tail', rfl, hcuts⟩ := h'.char_inv none
    have hsame := ih hcuts (by simpa [Nat.sub_sub] using htake') (by simp at hlen ⊢; omega)
      (by simp at hlen' ⊢; omega)
    rw [List.map_cons, List.map_cons, List.filter_cons, List.filter_cons, hsame, segment_ofChar,
      segment_ofChar]
  | @word before w after i pieces found tail ih =>
    by_cases hk : k < before.length + g.reach ∨ k < before.length + g.lookAhead
    · rw [filter_settled_eq_nil (.word found tail) hk, filter_settled_eq_nil h' hk]
    obtain ⟨p, hp, hfind, hlast⟩ := exists_pattern_of_found found
    have hreach := length_le_reach hlast.mem
    obtain ⟨after', rfl, htake'⟩ := exists_append_of_take htake (by omega)
    rw [longest_of_take policy (by omega) htake] at found
    obtain ⟨tail', rfl, hcuts⟩ := h'.word_inv found
    have hsame := ih hcuts (by simpa [Nat.sub_sub, Nat.add_comm] using htake')
      (by simp at hlen ⊢; omega) (by simp at hlen' ⊢; omega)
    rw [List.map_cons, List.map_cons, segment_ofWord before w after hp,
      segment_ofWord before w after' hp]
    by_cases hs : before.length + w.length + g.lookAhead ≤ k
    · -- the text that conditions look at is the same
      rw [List.filter_cons, List.filter_cons, hsame,
        resolve_of_take (List.mem_of_getElem? hp) (by omega) htake' (by simp at hlen; omega)
          (by simp at hlen'; omega)]
    · rw [List.filter_cons_of_neg (by simp [Segment.Settled, hs]),
        List.filter_cons_of_neg (by simp [Segment.Settled, hs]), hsame]

theorem filter_settled_prefix {start stop : Nat} {ss : List Segment}
    (h : Segment.Tile start stop ss) : ss.filter (Segment.Settled g k) <+: ss := by
  induction ss generalizing start with
  | nil => exact List.prefix_rfl
  | cons s ss ih =>
    obtain ⟨-, hlt, hrest⟩ := h
    by_cases hs : Segment.Settled g k s
    · rw [List.filter_cons_of_pos (by simpa using hs)]
      exact (List.prefix_cons_inj s).2 (ih hrest)
    · -- the steps behind it begin and end later
      have hnone : (s :: ss).filter (Segment.Settled g k) = [] := by
        refine List.filter_eq_nil_iff.2 fun s' hs' hsettled => hs ?_
        obtain ⟨hstart, hstop⟩ := of_decide_eq_true hsettled
        rcases List.mem_cons.1 hs' with rfl | hs'
        · exact ⟨hstart, hstop⟩
        · have := hrest.mem_bounds hs'
          constructor <;> omega
      rw [hnone]
      exact List.nil_prefix

theorem filter_settled_explain_prefix (g : Grammar) (policy : Policy) (k : Nat)
    (text : List Char) : ((ofGrammar g policy).explain text).filter (Segment.Settled g k) <+:
      (ofGrammar g policy).explain text :=
  filter_settled_prefix (tile_segments ((ofGrammar g policy).cuts_tokens (g.normalize text)))

theorem filter_settled_explain_congr (policy : Policy) (text text' : List Char)
    (hlen : k ≤ (g.normalize text).length) (hlen' : k ≤ (g.normalize text').length)
    (htake : (g.normalize text).take k = (g.normalize text').take k) :
    ((ofGrammar g policy).explain text).filter (Segment.Settled g k) =
      ((ofGrammar g policy).explain text').filter (Segment.Settled g k) := by
  refine filter_settled_congr ((ofGrammar g policy).cuts_tokens (g.normalize text))
    ((ofGrammar g policy).cuts_tokens (g.normalize text')) htake ?_ ?_
  · rwa [List.length_nil, Nat.zero_add]
  · rwa [List.length_nil, Nat.zero_add]

/-- **What the first characters settle.** Where two texts begin with the same `k` characters, the
steps that these settle come first in both, and are the same. So typing more changes no step that
the text has settled so far. -/
theorem explain_settled (g : Grammar) (policy : Policy) :
    (∀ text text' k, k ≤ (g.normalize text).length → k ≤ (g.normalize text').length →
      (g.normalize text).take k = (g.normalize text').take k →
      ∃ settled,
        ((ofGrammar g policy).explain text).filter (Segment.Settled g k) = settled ∧
        ((ofGrammar g policy).explain text').filter (Segment.Settled g k) = settled ∧
        settled <+: (ofGrammar g policy).explain text ∧
        settled <+: (ofGrammar g policy).explain text') ∧
    ∀ text more,
      ((ofGrammar g policy).explain text).filter
          (Segment.Settled g (g.normalize text).length) <+:
        (ofGrammar g policy).explain (text ++ more) := by
  constructor
  · intro text text' k hlen hlen' htake
    have hsame := filter_settled_explain_congr policy text text' hlen hlen' htake
    refine ⟨_, rfl, hsame.symm, filter_settled_explain_prefix g policy k text, ?_⟩
    rw [hsame]
    exact filter_settled_explain_prefix g policy k text'
  · intro text more
    have happend : g.normalize (text ++ more) = g.normalize text ++ g.normalize more :=
      List.flatMap_append
    have hlen : (g.normalize text).length ≤ (g.normalize (text ++ more)).length := by
      rw [happend, List.length_append]
      omega
    have htake : (g.normalize text).take (g.normalize text).length =
        (g.normalize (text ++ more)).take (g.normalize text).length := by
      rw [happend, List.take_left, List.take_length]
    rw [filter_settled_explain_congr policy text (text ++ more) (Nat.le_refl _) hlen htake]
    exact filter_settled_explain_prefix g policy _ _

/-- A grammar with one match, of three characters, and a rule that looks two characters further. -/
def hesitant : Grammar where
  vowels := .ofText "i".toList
  consonants := .ofText "rz".toList
  caseSensitive := .ofText "".toList
  patterns := [⟨"rri".toList, "R".toList, some [
    ⟨[⟨.after, some (.exact "zz".toList), true⟩], "Z".toList⟩]⟩]
  disjoint := LetterClass.common?_eq_none_iff.1 (by decide)

/-- Five characters settle the first match. They do not settle what comes next: with one character
more it is a match, too. -/
theorem hesitant_explain_settled :
    ((ofGrammar hesitant .strict).explain "rrirr".toList).filter (Segment.Settled hesitant 5) =
      [⟨0, 3, "rri".toList, "Z".toList, some "rri".toList, some 0⟩] ∧
    [⟨0, 3, "rri".toList, "Z".toList, some "rri".toList, some 0⟩] <+:
      (ofGrammar hesitant .strict).explain "RRIRRI".toList := by
  have hfirst : ((ofGrammar hesitant .strict).explain "rrirr".toList).filter
      (Segment.Settled hesitant 5) =
        [⟨0, 3, "rri".toList, "Z".toList, some "rri".toList, some 0⟩] := by decide +kernel
  obtain ⟨settled, hsettled, -, -, hprefix⟩ := (explain_settled hesitant .strict).1
    "rrirr".toList "RRIRRI".toList 5 (by decide +kernel) (by decide +kernel) (by decide +kernel)
  rw [← hsettled, hfirst] at hprefix
  exact ⟨hfirst, hprefix⟩

end Transliterator

end Translit
