import Translit.Proofs.Conditions
import Translit.Proofs.Cutting

/-!
# The account of a conversion

The steps of a conversion lie end to end over the normalized text, each says truly what was found
there and which rule gave the replacement, and their outputs joined are the text converted.

* `Segment.Tile`: steps that lie end to end;
* `Segment.Faithful`: a step that says what is true of the text;
* `explain_account`: the steps of every conversion.
-/

namespace Translit

/-- The steps lie end to end from `start` to `stop`, and none is empty. -/
def Segment.Tile : (start stop : Nat) → List Segment → Prop
  | start, stop, [] => start = stop
  | start, stop, s :: ss => s.start = start ∧ s.start < s.stop ∧ Tile s.stop stop ss

/-- The step says what is true of the normalized text. -/
structure Segment.Faithful (g : Grammar) (policy : Policy) (cs : List Char) (s : Segment) :
    Prop where
  /-- The source is the slice of the text. -/
  source : s.source = (cs.drop s.start).take (s.stop - s.start)
  /-- Without a pattern one character stays. -/
  char : s.pattern? = none → s.stop = s.start + 1 ∧ s.output = s.source ∧ s.rule? = none
  /-- A pattern finds the source and is the last one that does; the output and the rule are those
  of its first rule that holds. -/
  word : ∀ f, s.pattern? = some f → f = s.source ∧
    ∃ i p, LastAt (g.patterns.map (·.find)) i f ∧ g.patterns[i]? = some p ∧
      Resolution.IsFirst p (·.holdsAt g policy cs s.start s.stop) ⟨s.output, s.rule?⟩

theorem Segment.Tile.le {start stop : Nat} {ss : List Segment} (h : Tile start stop ss) :
    start ≤ stop := by
  induction ss generalizing start with
  | nil => exact Nat.le_of_eq h
  | cons s ss ih =>
    obtain ⟨rfl, hlt, hrest⟩ := h
    exact Nat.le_trans (Nat.le_of_lt hlt) (ih hrest)

theorem Segment.Tile.mem_bounds {start stop : Nat} {s : Segment} {ss : List Segment}
    (h : Tile start stop ss) (hs : s ∈ ss) :
    start ≤ s.start ∧ s.start < s.stop ∧ s.stop ≤ stop := by
  induction ss generalizing start with
  | nil => cases hs
  | cons s' ss ih =>
    obtain ⟨rfl, hlt, hrest⟩ := h
    rcases List.mem_cons.1 hs with rfl | hs
    · exact ⟨Nat.le_refl _, hlt, hrest.le⟩
    · obtain ⟨hle, hbounds⟩ := ih hrest hs
      exact ⟨Nat.le_trans (Nat.le_of_lt hlt) hle, hbounds⟩

/-- There are no steps over an empty text, and over no other. -/
theorem Segment.Tile.eq_nil_iff {start stop : Nat} {ss : List Segment} (h : Tile start stop ss) :
    ss = [] ↔ start = stop := by
  cases ss with
  | nil => exact ⟨fun _ => h, fun _ => rfl⟩
  | cons s ss =>
    obtain ⟨rfl, hlt, hrest⟩ := h
    have := hrest.le
    exact ⟨fun he => absurd he (List.cons_ne_nil s ss), fun he => by omega⟩

namespace Transliterator

variable {g : Grammar} {policy : Policy} {before rest w after : List Char} {i : Nat}
  {pieces : List Placed}

theorem faithful_ofChar (before : List Char) (c : Char) (after : List Char) :
    ((ofGrammar g policy).segment (Placed.ofChar before c after)).Faithful g policy
      (before.reverse ++ c :: after) := by
  rw [segment_ofChar]
  refine ⟨?_, fun _ => ⟨rfl, rfl, rfl⟩, fun f h => absurd h (by simp)⟩
  simp

theorem faithful_ofWord
    (found : (ofGrammar g policy).trie.longest (w ++ after) = some ⟨i, w.length⟩) :
    ((ofGrammar g policy).segment (Placed.ofWord i before w after)).Faithful g policy
      (before.reverse ++ (w ++ after)) := by
  obtain ⟨p, hp, hfind, hlast⟩ := exists_pattern_of_found found
  rw [segment_ofWord before w after hp]
  refine ⟨?_, fun h => absurd h (by simp), fun f hf => ?_⟩
  · simp
  · simp only [Option.some.injEq] at hf
    have hfirst := (p.resolve_isFirst g policy ⟨some before, some after⟩).congr
      fun rule _ => by rw [← ofSpan_append before w after, rule.holds_ofSpan]
    exact ⟨by rw [← hf, hfind], i, p, by rw [← hf, hfind]; exact hlast, hp, hfirst⟩

/-- The steps of the rest of a text lie end to end. -/
theorem tile_segments (h : (ofGrammar g policy).trie.Cuts before rest pieces) :
    Segment.Tile before.length (before.length + rest.length)
      (pieces.map (ofGrammar g policy).segment) := by
  induction h with
  | done => rfl
  | @char before cs c pieces none _ ih =>
    refine ⟨rfl, Nat.lt_succ_self _, ?_⟩
    simpa [segment_ofChar, Nat.add_assoc, Nat.add_comm 1] using ih
  | @word before w after i pieces found _ ih =>
    obtain ⟨p, hp, -⟩ := exists_pattern_of_found found
    have hpos : 0 < w.length := Trie.length_pos_of_longest found
    rw [List.map_cons, segment_ofWord before w after hp]
    refine ⟨rfl, Nat.lt_add_of_pos_right hpos, ?_⟩
    simpa [Nat.add_assoc, Nat.add_comm w.length] using ih

/-- The steps of the rest of a text say what is true of the whole of it. -/
theorem faithful_segments (h : (ofGrammar g policy).trie.Cuts before rest pieces) :
    ∀ s ∈ pieces.map (ofGrammar g policy).segment,
      s.Faithful g policy (before.reverse ++ rest) := by
  induction h with
  | done => simp
  | @char before cs c pieces none _ ih =>
    rw [whole_char] at ih
    intro s hs
    rcases List.mem_cons.1 hs with rfl | hs
    · exact faithful_ofChar before c cs
    · exact ih s hs
  | @word before w after i pieces found _ ih =>
    rw [whole_word] at ih
    intro s hs
    rcases List.mem_cons.1 hs with rfl | hs
    · exact faithful_ofWord found
    · exact ih s hs

theorem surface_segments (t : Transliterator) (pieces : List Placed) :
    surface (pieces.map t.segment) = pieces.flatMap t.output := by
  simp only [surface, List.flatMap_map, segment_output]

/-- The conversion is what the steps come to. -/
theorem convert_eq_surface (t : Transliterator) (text : List Char) :
    t.convert text = surface (t.explain text) :=
  (surface_segments t _).symm

theorem convert_eq_of_explain_eq {t t' : Transliterator} {text : List Char}
    (h : t.explain text = t'.explain text) : t.convert text = t'.convert text := by
  rw [convert_eq_surface, convert_eq_surface, h]

/-- **The account of a conversion is complete and faithful**, for every grammar, policy and
text. -/
theorem explain_account (g : Grammar) (policy : Policy) (text : List Char) :
    Segment.Tile 0 (g.normalize text).length ((ofGrammar g policy).explain text) ∧
    ((ofGrammar g policy).explain text = [] ↔ g.normalize text = []) ∧
    (∀ s ∈ (ofGrammar g policy).explain text, s.Faithful g policy (g.normalize text)) ∧
    surface ((ofGrammar g policy).explain text) = (ofGrammar g policy).convert text := by
  have hcuts := (ofGrammar g policy).cuts_tokens (g.normalize text)
  have htile : Segment.Tile 0 (g.normalize text).length ((ofGrammar g policy).explain text) := by
    have := tile_segments hcuts
    rw [List.length_nil, Nat.zero_add] at this
    exact this
  refine ⟨htile, ?_, faithful_segments hcuts, surface_segments _ _⟩
  rw [htile.eq_nil_iff, eq_comm, List.length_eq_zero_iff]

/-- A grammar with two patterns that begin alike, one that is declared again, and a rule. -/
def overlapping : Grammar where
  vowels := .ofText "a".toList
  consonants := .ofText "hk".toList
  caseSensitive := .ofText "".toList
  patterns := [
    ⟨"kh".toList, "X".toList, some [⟨[⟨.after, some .vowel, false⟩], "x".toList⟩]⟩,
    ⟨"k".toList, "K".toList, none⟩,
    ⟨"k".toList, "Q".toList, none⟩]
  disjoint := LetterClass.common?_eq_none_iff.1 (by decide)

/-- The step that takes a rule, in an account with steps of every kind. -/
theorem overlapping_explain_account :
    (ofGrammar overlapping .negatable).explain "Khak".toList =
      [⟨0, 2, "kh".toList, "x".toList, some "kh".toList, some 0⟩,
        ⟨2, 3, "a".toList, "a".toList, none, none⟩,
        ⟨3, 4, "k".toList, "Q".toList, some "k".toList, none⟩] ∧
    Segment.Faithful overlapping .negatable "khak".toList
      ⟨0, 2, "kh".toList, "x".toList, some "kh".toList, some 0⟩ := by
  have horder : Trie.insertionOrder (overlapping.patterns.map (·.find)) =
      (overlapping.patterns.map (·.find)).zipIdx := List.mergeSort_of_pairwise (by decide)
  have hexplain : (ofGrammar overlapping .negatable).explain "Khak".toList =
      [⟨0, 2, "kh".toList, "x".toList, some "kh".toList, some 0⟩,
        ⟨2, 3, "a".toList, "a".toList, none, none⟩,
        ⟨3, 4, "k".toList, "Q".toList, some "k".toList, none⟩] := by
    rw [ofGrammar, Trie.build, horder]
    decide +kernel
  have hnormal : overlapping.normalize "Khak".toList = "khak".toList := by decide +kernel
  refine ⟨hexplain, ?_⟩
  rw [← hnormal]
  exact (explain_account overlapping .negatable "Khak".toList).2.2.1 _ (by rw [hexplain]; simp)

end Transliterator

end Translit
