import Translit.Proofs.Normalization
import Translit.Proofs.Tokens
import Translit.Proofs.Trie.Search

/-!
# Patterns that are used

A grammar may declare patterns that no text can make use of: one that finds nothing, one that finds
a letter which normalization takes away, or one that is declared again later on. All other patterns
are used, and the text that a pattern finds is a text that uses it.

* `Transliterator.Uses`, `Grammar.Live`: texts that use a pattern, and what is needed for one;
* `uses_live`: what is used is live;
* `scan_find`, `explain_find`: what a live pattern does with the text that it finds;
* `exists_uses_iff`: the patterns that are used by some text.
-/

namespace Translit

variable {g : Grammar} {policy : Policy} {i : Nat} {p : Pattern} {w text : List Char}

/-- The conversion of the text uses the pattern with index `i`: one of the tokens is a match of
it. -/
def Transliterator.Uses (t : Transliterator) (text : List Char) (i : Nat) : Prop :=
  ∃ start stop, .word i start stop ∈ t.trie.scan (t.grammar.normalize text)

/-- What is needed of the pattern `p` with index `i` to be used. -/
structure Grammar.Live (g : Grammar) (i : Nat) (p : Pattern) : Prop where
  /-- It finds something. -/
  nonempty : p.find ≠ []
  /-- Normalization leaves alone what it finds. -/
  normal : g.normalize p.find = p.find
  /-- No later pattern finds the same. -/
  last : ∀ q ∈ g.patterns.drop (i + 1), q.find ≠ p.find

theorem Grammar.live_iff : g.Live i p ↔ p.find ≠ [] ∧ g.normalize p.find = p.find ∧
    ∀ q ∈ g.patterns.drop (i + 1), q.find ≠ p.find :=
  ⟨fun h => ⟨h.nonempty, h.normal, h.last⟩, fun ⟨h1, h2, h3⟩ => ⟨h1, h2, h3⟩⟩

instance (g : Grammar) (i : Nat) (p : Pattern) : Decidable (g.Live i p) :=
  decidable_of_iff _ Grammar.live_iff.symm

theorem lastAt_find_iff (hp : g.patterns[i]? = some p) :
    LastAt (g.patterns.map (·.find)) i p.find ↔
      ∀ q ∈ g.patterns.drop (i + 1), q.find ≠ p.find := by
  constructor
  · intro h q hq heq
    obtain ⟨j, hj⟩ := List.getElem?_of_mem hq
    rw [List.getElem?_drop] at hj
    have hle := h.last (i + 1 + j) (by simp [hj, heq])
    omega
  · intro h
    refine ⟨by simp [hp], ?_⟩
    intro j hj
    rw [List.getElem?_map, Option.map_eq_some_iff] at hj
    obtain ⟨q, hq, heq⟩ := hj
    by_contra hlt
    apply h q _ heq
    have hdrop : (g.patterns.drop (i + 1))[j - (i + 1)]? = some q := by
      rw [List.getElem?_drop, ← hq]
      congr 1
      omega
    exact List.mem_of_getElem? hdrop

/-- **Slices of a normalized text** are normalized, too. -/
theorem normalize_of_infix (h : w <:+: g.normalize text) : g.normalize w = w := by
  apply Grammar.normalize_eq_self
  intro c hc
  exact Grammar.settled_of_mem_normalize (h.subset hc)

namespace Transliterator

/-- **What is used is live.** A token stands for a slice of the normalized text, and for the last
pattern that finds it. -/
theorem uses_live (hp : g.patterns[i]? = some p) (h : (ofGrammar g policy).Uses text i) :
    g.Live i p := by
  obtain ⟨start, stop, hmem⟩ := h
  obtain ⟨hlt, hle, hlast, -⟩ := Trie.fits_of_mem_scan hmem
  have hfind : p.find = ((g.normalize text).drop start).take (stop - start) := by
    have hhere := hlast.here
    rw [List.getElem?_map, hp, Option.map_some, Option.some.injEq] at hhere
    exact hhere
  rw [show (ofGrammar g policy).grammar = g from rfl] at hle hlast
  refine ⟨?_, ?_, ?_⟩
  · rw [hfind]
    apply List.ne_nil_of_length_pos
    rw [List.length_take, List.length_drop]
    omega
  · rw [hfind]
    apply normalize_of_infix
    exact (List.take_prefix _ _).isInfix.trans (List.drop_suffix _ _).isInfix
  · rw [← lastAt_find_iff hp, hfind]
    exact hlast

/-- The longest match at the beginning of what a live pattern finds is all of it. -/
theorem isLongest_find (hp : g.patterns[i]? = some p) (h : g.Live i p) :
    IsLongest (g.patterns.map (·.find)) p.find ⟨i, p.find.length⟩ := by
  refine ⟨List.length_pos_iff.2 h.nonempty, Nat.le_refl _, ?_, ?_⟩
  · rw [List.take_length]
    exact (lastAt_find_iff hp).2 h.last
  · intro w _ hpre
    exact hpre.length_le

theorem scan_find (hp : g.patterns[i]? = some p) (h : g.Live i p) :
    (ofGrammar g policy).trie.scan p.find = [.word i 0 p.find.length] := by
  apply Trie.scan_eq_iff.2
  refine ⟨⟨rfl, rfl⟩, ?_⟩
  intro tok htok
  rw [List.mem_singleton.1 htok]
  have hlong := isLongest_find hp h
  exact Token.fits_word_iff.2 ⟨hlong.pos, hlong⟩

/-- One step replaces all of what a live pattern finds. -/
theorem explain_find (hp : g.patterns[i]? = some p) (h : g.Live i p) :
    (ofGrammar g policy).explain p.find =
      [{ start := 0, stop := p.find.length, source := p.find,
         output := (p.resolve g policy (.ofSpan p.find 0 p.find.length)).text,
         pattern? := some p.find,
         rule? := (p.resolve g policy (.ofSpan p.find 0 p.find.length)).rule? }] := by
  have hfound : (ofGrammar g policy).trie.longest (p.find ++ []) = some ⟨i, p.find.length⟩ := by
    rw [List.append_nil]
    exact ofGrammar_longest.2 (isLongest_find hp h)
  have hcuts : (ofGrammar g policy).trie.Cuts [] (p.find ++ []) [Placed.ofWord i [] p.find []] :=
    .word hfound .done
  rw [List.append_nil] at hcuts
  have haround : Surroundings.ofSpan p.find 0 p.find.length = ⟨some [], some []⟩ := by
    simpa using ofSpan_append [] p.find []
  have hnormal : (ofGrammar g policy).grammar.normalize p.find = p.find := h.normal
  rw [explain, hnormal, tokens_eq_of_cuts hcuts, List.map_singleton, segment_ofWord [] _ [] hp,
    haround, List.length_nil, Nat.zero_add]

/-- **The patterns that are used.** Some text uses a pattern exactly if the pattern finds something,
normalization leaves that alone, and no later pattern finds the same. What the pattern finds is then
such a text: it is one match, and one step of the conversion replaces all of it. -/
theorem exists_uses_iff (g : Grammar) (policy : Policy) (i : Nat) (p : Pattern)
    (hp : g.patterns[i]? = some p) :
    ((∃ text, (ofGrammar g policy).Uses text i) ↔ g.Live i p) ∧
    (g.Live i p →
      (ofGrammar g policy).Uses p.find i ∧
      (ofGrammar g policy).explain p.find =
        [{ start := 0, stop := p.find.length, source := p.find,
           output := (p.resolve g policy (.ofSpan p.find 0 p.find.length)).text,
           pattern? := some p.find,
           rule? := (p.resolve g policy (.ofSpan p.find 0 p.find.length)).rule? }] ∧
      ∃ continues, (ofGrammar g policy).trie.lookup p.find = ⟨some i, continues⟩) := by
  have hself : g.Live i p → (ofGrammar g policy).Uses p.find i := by
    intro h
    refine ⟨0, p.find.length, ?_⟩
    have hnormal : (ofGrammar g policy).grammar.normalize p.find = p.find := h.normal
    rw [hnormal, scan_find hp h]
    exact List.mem_singleton_self _
  refine ⟨⟨?_, ?_⟩, ?_⟩
  · rintro ⟨text, huses⟩
    exact uses_live hp huses
  · intro h
    exact ⟨p.find, hself h⟩
  · intro h
    refine ⟨hself h, explain_find hp h, ((ofGrammar g policy).trie.lookup p.find).continues, ?_⟩
    have hlast := (lastAt_find_iff hp).2 h.last
    exact Trie.lookup_eq_iff.2 ⟨Trie.word?_lookup_build.2 ⟨h.nonempty, hlast⟩, rfl⟩

/-- A grammar with a pattern that finds a capital letter, one that is declared again, and one that
finds nothing. -/
def idle : Grammar := { overlapping with patterns := [
  ⟨"K".toList, "1".toList, none⟩,
  ⟨"k".toList, "2".toList, none⟩,
  ⟨"k".toList, "3".toList, some [⟨[⟨.after, some .punctuation, false⟩], "4".toList⟩]⟩,
  ⟨"".toList, "5".toList, none⟩] }

/-- Of the four patterns one is used, and there is no text that uses one of the others. -/
theorem idle_exists_uses :
    (ofGrammar idle .strict).explain "k".toList =
      [⟨0, 1, "k".toList, "4".toList, some "k".toList, some 0⟩] ∧
    (∃ text, (ofGrammar idle .strict).Uses text 2) ∧
    ∀ i p, i ≠ 2 → idle.patterns[i]? = some p → ¬ ∃ text, (ofGrammar idle .strict).Uses text i := by
  have hlive : idle.Live 2 ⟨"k".toList, "3".toList,
      some [⟨[⟨.after, some .punctuation, false⟩], "4".toList⟩]⟩ := by decide +kernel
  obtain ⟨huses, hfind⟩ := exists_uses_iff idle .strict 2 _ rfl
  refine ⟨?_, huses.2 hlive, ?_⟩
  · rw [(hfind hlive).2.1]
    decide +kernel
  · intro i p hi hp
    rw [(exists_uses_iff idle .strict i p hp).1]
    match i with
    | 0 =>
      cases hp
      decide +kernel
    | 1 =>
      cases hp
      decide +kernel
    | 2 => exact absurd rfl hi
    | 3 =>
      cases hp
      decide +kernel
    | _ + 4 => cases hp

end Transliterator

end Translit
