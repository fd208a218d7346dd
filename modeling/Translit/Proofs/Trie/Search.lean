import Translit.Proofs.Trie.Paths

/-!
# What a search finds

Both searches of a built trie are said in terms of its words: which one is the longest at a place
of a text, and what a whole sequence is among them.

* `Trie.WellFormed.word?_lookup`, `Trie.WellFormed.continues_lookup`: the two parts of what is known
  of a sequence;
* `Trie.longestMatch_build`: the search at a place of a text;
* `Trie.lookup_build`: the four things that a sequence can be.
-/

namespace Translit.Trie

variable {t : Trie} {i k : Nat} {s : List Char} {words : List (List Char)}

/-! ## A place of a text -/

/-- **The longest match.** At a place of a text the search finds a word exactly if it is not empty,
stands there, has its last place in the list at that index, and no longer word stands there; it
finds none exactly if no word but the empty one stands there or the text has ended. -/
theorem longestMatch_build (words : List (List Char)) (cs : List Char) (start : Nat) :
    (∀ m, (build words).longestMatch cs start = some m ↔
      1 ≤ m.length ∧ start + m.length ≤ cs.length ∧
      words[m.word]? = some ((cs.drop start).take m.length) ∧
      (∀ j, m.word < j → words[j]? ≠ some ((cs.drop start).take m.length)) ∧
      ∀ w ∈ words, m.length < w.length → ¬ w <+: cs.drop start) ∧
    ((build words).longestMatch cs start = none ↔
      (∀ w ∈ words, w ≠ [] → ¬ w <+: cs.drop start) ∨ cs.length ≤ start) := by
  constructor
  · intro m
    rw [longestMatch, longest_build]
    constructor
    · intro h
      have hle := h.le_length
      rw [List.length_drop] at hle
      have hpos := h.pos
      refine ⟨hpos, by omega, h.lastAt.here, ?_, ?_⟩
      · intro j hj hword
        exact Nat.not_le.2 hj (h.lastAt.last j hword)
      · intro w hw hlen hpre
        exact Nat.not_le.2 hlen (h.longest w hw hpre)
    · rintro ⟨hpos, hle, hhere, hlast, hlongest⟩
      refine ⟨hpos, ?_, ⟨hhere, ?_⟩, ?_⟩
      · rw [List.length_drop]
        omega
      · intro j hword
        by_contra hj
        exact hlast j (Nat.not_le.1 hj) hword
      · intro w hw hpre
        by_contra hlen
        exact hlongest w hw (Nat.not_le.1 hlen) hpre
  · rw [longestMatch, longest_build_eq_none]
    constructor
    · intro h
      exact .inl fun w hw hne hpre => hne (h w hw hpre)
    · rintro (h | h) w hw hpre
      · by_contra hne
        exact h w hw hne hpre
      · rw [List.drop_eq_nil_of_le h] at hpre
        exact List.prefix_nil.1 hpre

/-- The walk comes back from a dead end to a shorter word, of which the later one counts. -/
example : (build ["a".toList, [], "abcd".toList, "a".toList]).longestMatch "xabce".toList 1 =
    some ⟨3, 1⟩ := by
  cbv

/-! ## A whole sequence -/

theorem lookup_nil (t : Trie) : t.lookup [] = {} := rfl

theorem lookup_of_reach?_eq_none (h : t.reach? root s = none) : t.lookup s = {} := by
  rw [lookup, h]

theorem WellFormed.lookup_of_reach? (ht : t.WellFormed) (hs : s ≠ [])
    (h : t.reach? root s = some k) :
    t.lookup s = { word? := (t.node k).word?, continues := !(t.node k).children.isEmpty } := by
  have hk : k ≠ root := by
    rintro rfl
    obtain ⟨p, c, rfl⟩ := (List.eq_nil_or_concat s).resolve_left hs
    rw [List.concat_eq_append] at h
    exact ht.reach?_concat_ne_root h
  rw [lookup, h]
  exact if_neg hk

/-- The word that a trie knows at a sequence, unless that is empty. -/
theorem WellFormed.word?_lookup (ht : t.WellFormed) (hs : s ≠ []) :
    (t.lookup s).word? = t.wordAt? root s := by
  rw [wordAt?]
  cases h : t.reach? root s with
  | none =>
    rw [lookup_of_reach?_eq_none h]
    rfl
  | some k =>
    rw [ht.lookup_of_reach? hs h]
    rfl

/-- Whether a way goes on behind a sequence, unless that is empty. -/
theorem WellFormed.continues_lookup (ht : t.WellFormed) (hs : s ≠ []) :
    (t.lookup s).continues = true ↔ ∃ c, (t.reach? root (s ++ [c])).isSome := by
  cases h : t.reach? root s with
  | none => simp [lookup_of_reach?_eq_none h, reach?_concat, h]
  | some k =>
    rw [ht.lookup_of_reach? hs h, Bool.not_eq_true', ← Bool.not_eq_true, Array.isEmpty_iff,
      ht.children_eq_empty_iff h, not_forall]
    simp only [Option.isSome_iff_ne_none, ne_eq]

/-- The word that a sequence is, unless it is empty. -/
theorem word?_lookup_build :
    ((build words).lookup s).word? = some i ↔ s ≠ [] ∧ LastAt words i s := by
  by_cases hs : s = []
  · simp [hs, lookup_nil]
  · rw [(wellFormed_build words).word?_lookup hs, wordAt?_build]
    exact (and_iff_right hs).symm

/-- Whether a word goes on behind a sequence, unless that is empty. -/
theorem continues_lookup_build :
    ((build words).lookup s).continues = true ↔ s ≠ [] ∧ ∃ w ∈ words, s <+: w ∧ w ≠ s := by
  by_cases hs : s = []
  · simp [hs, lookup_nil]
  · rw [(wellFormed_build words).continues_lookup hs, and_iff_right hs]
    simp only [isSome_reach?_build, List.append_eq_nil_iff, List.cons_ne_nil, and_false, false_or,
      ← exists_concat_prefix_iff]
    constructor
    · rintro ⟨c, w, hw, hpre⟩
      exact ⟨w, hw, c, hpre⟩
    · rintro ⟨w, hw, c, hpre⟩
      exact ⟨c, w, hw, hpre⟩

theorem word?_lookup_build_eq_none :
    ((build words).lookup s).word? = none ↔ s = [] ∨ s ∉ words := by
  constructor
  · intro h
    by_contra hno
    obtain ⟨hs, hmem⟩ := not_or.1 hno
    obtain ⟨i, hi⟩ := exists_lastAt (not_not.1 hmem)
    rw [word?_lookup_build.2 ⟨hs, hi⟩] at h
    cases h
  · intro h
    cases hi : ((build words).lookup s).word? with
    | none => rfl
    | some i =>
      obtain ⟨hs, hlast⟩ := word?_lookup_build.1 hi
      exact absurd hlast.mem (h.resolve_left hs)

theorem continues_lookup_build_eq_false :
    ((build words).lookup s).continues = false ↔ s = [] ∨ ∀ w ∈ words, s <+: w → w = s := by
  rw [← Bool.not_eq_true, continues_lookup_build]
  by_cases hs : s = []
  · simp [hs]
  · simp [hs]

theorem lookup_eq_iff {a : Lookup} :
    t.lookup s = a ↔ (t.lookup s).word? = a.word? ∧ (t.lookup s).continues = a.continues := by
  cases t.lookup s
  cases a
  simp

/-- **What a sequence is among the words.** Nothing, if it is empty or no word begins with it; only
the beginning of a word, if it is none itself; a word, at its last place in the list, behind which
no other goes on; or a word behind which another goes on. So a sequence that is not empty leads to
no node that has neither a word nor a child. -/
theorem lookup_build (words : List (List Char)) (s : List Char) :
    ((build words).lookup s = ⟨none, false⟩ ↔ s = [] ∨ ∀ w ∈ words, ¬ s <+: w) ∧
    ((build words).lookup s = ⟨none, true⟩ ↔
      s ≠ [] ∧ (∃ w ∈ words, s <+: w) ∧ s ∉ words) ∧
    (∀ i, (build words).lookup s = ⟨some i, false⟩ ↔
      s ≠ [] ∧ LastAt words i s ∧ ∀ w ∈ words, s <+: w → w = s) ∧
    (∀ i, (build words).lookup s = ⟨some i, true⟩ ↔
      s ≠ [] ∧ LastAt words i s ∧ ∃ w ∈ words, s <+: w ∧ w ≠ s) ∧
    ∀ k, s ≠ [] → (build words).reach? root s = some k →
      ((build words).node k).word? ≠ none ∨ ((build words).node k).children ≠ #[] := by
  have hno : (build words).lookup s = ⟨none, false⟩ ↔ s = [] ∨ ∀ w ∈ words, ¬ s <+: w := by
    rw [lookup_eq_iff, word?_lookup_build_eq_none, continues_lookup_build_eq_false, ← or_and_left]
    refine or_congr_right ⟨?_, ?_⟩
    · rintro ⟨hmem, hsame⟩ w hw hpre
      exact hmem (hsame w hw hpre ▸ hw)
    · intro h
      exact ⟨fun hmem => h s hmem (List.prefix_refl s), fun w hw hpre => absurd hpre (h w hw)⟩
  refine ⟨hno, ?_, ?_, ?_, ?_⟩
  · rw [lookup_eq_iff, word?_lookup_build_eq_none, continues_lookup_build]
    constructor
    · rintro ⟨hword, hs, w, hw, hpre, -⟩
      exact ⟨hs, ⟨w, hw, hpre⟩, hword.resolve_left hs⟩
    · rintro ⟨hs, ⟨w, hw, hpre⟩, hmem⟩
      refine ⟨.inr hmem, hs, w, hw, hpre, ?_⟩
      rintro rfl
      exact hmem hw
  · intro i
    rw [lookup_eq_iff, word?_lookup_build, continues_lookup_build_eq_false]
    constructor
    · rintro ⟨⟨hs, hlast⟩, hsame⟩
      exact ⟨hs, hlast, hsame.resolve_left hs⟩
    · rintro ⟨hs, hlast, hsame⟩
      exact ⟨⟨hs, hlast⟩, .inr hsame⟩
  · intro i
    rw [lookup_eq_iff, word?_lookup_build, continues_lookup_build]
    constructor
    · rintro ⟨⟨hs, hlast⟩, -, hlonger⟩
      exact ⟨hs, hlast, hlonger⟩
    · rintro ⟨hs, hlast, hlonger⟩
      exact ⟨⟨hs, hlast⟩, hs, hlonger⟩
  · intro k hs hk
    by_contra hdead
    obtain ⟨hword, hchildren⟩ := not_or.1 hdead
    have hnothing : (build words).lookup s = ⟨none, false⟩ := by
      rw [(wellFormed_build words).lookup_of_reach? hs hk, not_not.1 hword, not_not.1 hchildren]
      rfl
    obtain ⟨w, hw, hpre⟩ :=
      (isSome_reach?_build.1 (Option.isSome_iff_exists.2 ⟨k, hk⟩)).resolve_left hs
    exact (hno.1 hnothing).resolve_left hs w hw hpre

/-- A word that another one goes on from, twice in the list next to the empty one. -/
example : (build ["a".toList, [], "ab".toList, "a".toList]).lookup "a".toList =
    ⟨some 3, true⟩ := by
  cbv

end Translit.Trie
