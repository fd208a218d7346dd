import Translit.Proofs.Trie.Words
import Translit.Transliterator

/-!
# Cutting a text

The scan of a text as a relation that says what is cut off at each place, from left to right. It
has one outcome for each text, so two scans are compared by their derivations.

* `Placed.ofChar`, `Placed.ofWord`: the two kinds of pieces, in their places;
* `Trie.Cuts`: the pieces of a text;
* `Trie.cuts_iff`: they are the tokens of the scan, in their places.
-/

namespace Translit

/-- A character on its own; `before` is the text in front of it, last character first. -/
def Placed.ofChar (before : List Char) (c : Char) (after : List Char) : Placed :=
  ⟨.literal before.length c, [c], ⟨some before, some after⟩⟩

/-- The word with index `i` in its place. -/
def Placed.ofWord (i : Nat) (before w after : List Char) : Placed :=
  ⟨.word i before.length (before.length + w.length), w, ⟨some before, some after⟩⟩

/-! ## The whole of a text, seen from a place in it -/

theorem drop_whole (before rest : List Char) :
    (before.reverse ++ rest).drop before.length = rest :=
  List.drop_left' List.length_reverse

theorem whole_char (before : List Char) (c : Char) (cs : List Char) :
    (c :: before).reverse ++ cs = before.reverse ++ c :: cs := by
  simp

theorem whole_word (before w after : List Char) :
    (w.reverse ++ before).reverse ++ after = before.reverse ++ (w ++ after) := by
  simp

namespace Trie

/-- **The pieces of a text** with `before` in front of it, last character first. -/
inductive Cuts (t : Trie) : (before rest : List Char) → List Placed → Prop
  | done {before : List Char} : Cuts t before [] []
  | char {before cs : List Char} {c : Char} {ps : List Placed}
      (none : t.longest (c :: cs) = none) (tail : Cuts t (c :: before) cs ps) :
      Cuts t before (c :: cs) (Placed.ofChar before c cs :: ps)
  | word {before w after : List Char} {i : Nat} {ps : List Placed}
      (found : t.longest (w ++ after) = some ⟨i, w.length⟩)
      (tail : Cuts t (w.reverse ++ before) after ps) :
      Cuts t before (w ++ after) (Placed.ofWord i before w after :: ps)

variable {t : Trie} {before rest after w cs : List Char} {c : Char} {i : Nat} {ps : List Placed}

/-- The tokens of the rest of a text, in their places. -/
def placedFrom (t : Trie) (before rest : List Char) : List Placed :=
  Placed.ofTokensFrom before rest (t.scanFrom before.length 0 rest)

theorem scanFrom_skip (t : Trie) (pos skip : Nat) (cs : List Char) :
    t.scanFrom pos skip cs = t.scanFrom (pos + skip) 0 (cs.drop skip) := by
  induction cs generalizing pos skip with
  | nil => simp [scanFrom]
  | cons c cs ih =>
    cases skip with
    | zero => rfl
    | succ skip =>
      rw [scanFrom, ih, List.drop_succ_cons]
      congr 1
      omega

theorem placedFrom_char (h : t.longest (c :: cs) = none) :
    t.placedFrom before (c :: cs) =
      Placed.ofChar before c cs :: t.placedFrom (c :: before) cs := by
  simp [placedFrom, scanFrom, h, Placed.ofTokensFrom, Token.start, Token.stop, Placed.ofChar]

theorem placedFrom_word (h : t.longest (w ++ after) = some ⟨i, w.length⟩) :
    t.placedFrom before (w ++ after) =
      Placed.ofWord i before w after :: t.placedFrom (w.reverse ++ before) after := by
  have hpos : 0 < w.length := length_pos_of_longest h
  obtain ⟨c, cs, rfl⟩ := List.exists_cons_of_length_pos hpos
  have hdrop : (cs ++ after).drop cs.length = after := by simp
  have hlen : before.length + 1 + cs.length = ((c :: cs).reverse ++ before).length := by
    simp only [List.length_append, List.length_reverse, List.length_cons]
    omega
  rw [List.cons_append] at h
  rw [placedFrom, List.cons_append, scanFrom, h]
  simp only [List.length_cons, Nat.add_sub_cancel]
  rw [scanFrom_skip, hdrop, hlen, Placed.ofTokensFrom]
  simp [Token.start, Token.stop, Placed.ofWord, placedFrom]

theorem Cuts.eq_placedFrom (h : t.Cuts before rest ps) : ps = t.placedFrom before rest := by
  induction h with
  | done => rfl
  | char none _ ih => rw [placedFrom_char none, ih]
  | word found _ ih => rw [placedFrom_word found, ih]

theorem cuts_placedFrom (t : Trie) (before rest : List Char) :
    t.Cuts before rest (t.placedFrom before rest) := by
  induction hn : rest.length using Nat.strong_induction_on generalizing before rest with
  | _ n ih =>
    cases rest with
    | nil => exact .done
    | cons c cs =>
      cases hm : t.longest (c :: cs) with
      | none =>
        rw [placedFrom_char hm]
        exact .char hm (ih cs.length (by simp [← hn]) _ _ rfl)
      | some m =>
        have hpos := length_pos_of_longest hm
        have hle := length_le_of_longest hm
        have hcut := List.take_append_drop m.length (c :: cs)
        have hlen : ((c :: cs).take m.length).length = m.length := List.length_take_of_le hle
        rw [← hcut] at hm ⊢
        have hm' : t.longest ((c :: cs).take m.length ++ (c :: cs).drop m.length) =
            some ⟨m.word, ((c :: cs).take m.length).length⟩ := by rw [hm, hlen]
        rw [placedFrom_word hm']
        exact .word hm' (ih _ (by rw [List.length_drop]; omega) _ _ rfl)

/-- **Each text has one list of pieces**, the tokens of its scan in their places. -/
theorem cuts_iff : t.Cuts before rest ps ↔ ps = t.placedFrom before rest := by
  constructor
  · exact Cuts.eq_placedFrom
  · rintro rfl
    exact cuts_placedFrom t before rest

/-- What a piece is: a character or a word of the text, in its place. -/
theorem Cuts.mem_cases {piece : Placed} (h : t.Cuts before rest ps) (hp : piece ∈ ps) :
    (∃ b c a, before.reverse ++ rest = b.reverse ++ c :: a ∧ piece = Placed.ofChar b c a) ∨
      ∃ i b w a, before.reverse ++ rest = b.reverse ++ (w ++ a) ∧
        t.longest (w ++ a) = some ⟨i, w.length⟩ ∧ piece = Placed.ofWord i b w a := by
  induction h with
  | done => cases hp
  | @char before cs c ps none tail ih =>
    rw [whole_char] at ih
    rcases List.mem_cons.1 hp with rfl | hp
    · exact .inl ⟨before, c, cs, rfl, rfl⟩
    · exact ih hp
  | @word before w after i ps found tail ih =>
    rw [whole_word] at ih
    rcases List.mem_cons.1 hp with rfl | hp
    · exact .inr ⟨i, before, w, after, rfl, found, rfl⟩
    · exact ih hp

theorem Cuts.char_inv (h : t.Cuts before (c :: cs) ps) (none : t.longest (c :: cs) = none) :
    ∃ tail, ps = Placed.ofChar before c cs :: tail ∧ t.Cuts (c :: before) cs tail :=
  ⟨_, (cuts_iff.1 h).trans (placedFrom_char none), cuts_placedFrom t _ _⟩

theorem Cuts.word_inv (h : t.Cuts before (w ++ after) ps)
    (found : t.longest (w ++ after) = some ⟨i, w.length⟩) :
    ∃ tail, ps = Placed.ofWord i before w after :: tail ∧
      t.Cuts (w.reverse ++ before) after tail :=
  ⟨_, (cuts_iff.1 h).trans (placedFrom_word found), cuts_placedFrom t _ _⟩

end Trie

/-! ## The patterns of one find sequence -/

theorem LastAt.exists_pattern {ps : List Pattern} {w : List Char} {i : Nat}
    (h : LastAt (ps.map (·.find)) i w) : ∃ p, ps[i]? = some p ∧ p.find = w := by
  simpa using h.here

/-- Of the patterns with one find sequence the last stands at the last place of that sequence. -/
theorem getLast?_filter_find {ps : List Pattern} {w : List Char} {i : Nat} {p : Pattern}
    (h : LastAt (ps.map (·.find)) i w) (hp : ps[i]? = some p) :
    (ps.filter fun q => q.find = w).getLast? = some p := by
  induction ps using List.reverseRecOn with
  | nil => simp at hp
  | append_singleton ps q ih =>
    rw [List.map_append, List.map_singleton, lastAt_concat] at h
    split at h
    · rename_i hwq
      rw [List.length_map] at h
      subst h
      simp only [List.getElem?_concat_length, Option.some.injEq] at hp
      simp [hwq, hp]
    · rename_i hwq
      have hi : i < ps.length := by simpa using (List.getElem?_eq_some_iff.1 h.here).1
      rw [List.getElem?_append_left hi] at hp
      simpa [Ne.symm hwq] using ih h hp

namespace Transliterator

variable {g : Grammar} {policy : Policy} {rest w after before : List Char} {i : Nat} {p : Pattern}
  {m : Trie.Match}

theorem cuts_tokens (t : Transliterator) (cs : List Char) : t.trie.Cuts [] cs (t.tokens cs) :=
  Trie.cuts_iff.2 rfl

theorem tokens_eq_of_cuts {t : Transliterator} {cs : List Char} {pieces : List Placed}
    (h : t.trie.Cuts [] cs pieces) : t.tokens cs = pieces :=
  (Trie.cuts_iff.1 h).symm

/-! ## The words of a grammar -/

/-- The trie of a transliterator finds the longest find sequence of its grammar. -/
theorem ofGrammar_longest :
    (ofGrammar g policy).trie.longest rest = some m ↔ IsLongest (g.patterns.map (·.find)) rest m :=
  Trie.longest_build

theorem ofGrammar_longest_eq_none : (ofGrammar g policy).trie.longest rest = none ↔
    ∀ w ∈ g.patterns.map (·.find), w <+: rest → w = [] :=
  Trie.longest_build_eq_none

/-- A word that is cut off is the find sequence of a pattern, the last one with it. -/
theorem exists_pattern_of_found
    (found : (ofGrammar g policy).trie.longest (w ++ after) = some ⟨i, w.length⟩) :
    ∃ p, g.patterns[i]? = some p ∧ p.find = w ∧ LastAt (g.patterns.map (·.find)) i w := by
  have hlast : LastAt (g.patterns.map (·.find)) i w := by
    simpa using (ofGrammar_longest.1 found).lastAt
  obtain ⟨p, hp, hfind⟩ := hlast.exists_pattern
  exact ⟨p, hp, hfind, hlast⟩

/-! ## What the pieces become -/

theorem output_ofChar (t : Transliterator) (before : List Char) (c : Char) (after : List Char) :
    t.output (Placed.ofChar before c after) = [c] := rfl

theorem output_ofWord (before w after : List Char) (hp : g.patterns[i]? = some p) :
    (ofGrammar g policy).output (Placed.ofWord i before w after) =
      (p.resolve g policy ⟨some before, some after⟩).text := by
  simp [output, Placed.ofWord, resolve?, ofGrammar, hp]

theorem segment_ofChar (t : Transliterator) (before : List Char) (c : Char) (after : List Char) :
    t.segment (Placed.ofChar before c after) =
      { start := before.length, stop := before.length + 1, source := [c], output := [c] } := rfl

theorem segment_ofWord (before w after : List Char) (hp : g.patterns[i]? = some p) :
    (ofGrammar g policy).segment (Placed.ofWord i before w after) =
      { start := before.length, stop := before.length + w.length, source := w,
        output := (p.resolve g policy ⟨some before, some after⟩).text, pattern? := some p.find,
        rule? := (p.resolve g policy ⟨some before, some after⟩).rule? } := by
  simp [segment, Placed.ofWord, resolve?, ofGrammar, hp]

theorem segment_output (t : Transliterator) (p : Placed) : (t.segment p).output = t.output p := by
  unfold segment output
  cases p.token with
  | literal pos c => rfl
  | word i start stop =>
    cases h : t.resolve? i p.around <;> simp only [h]

end Transliterator

end Translit
