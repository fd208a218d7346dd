import Translit.Proofs.Account

/-!
# Patterns that matter

A conversion asks of the patterns one thing only: which is the last one that finds a given sequence,
for the sequences that stand in the text. The order of the patterns, what a later pattern of the
same sequence hides, and what finds nothing in the text are no part of that.

* `lastWith?`: the last pattern that finds a sequence;
* `Grammar.SameClasses`: two grammars that class the letters alike;
* `Grammar.SameWithin`: two grammars with the same patterns for what stands in a text;
* `segments_sameWithin`: they cut the rest of a text alike, step by step;
* `relevant_patterns`: they convert it alike, and so do reordered and thinned patterns.
-/

namespace Translit

/-- The last of the patterns that find `w`. -/
def lastWith? (ps : List Pattern) (w : List Char) : Option Pattern :=
  (ps.filter fun p => p.find = w).getLast?

/-- The two grammars have the same vowels, consonants and letters whose case matters. -/
structure Grammar.SameClasses (g g' : Grammar) : Prop where
  vowels : ∀ c, c ∈ g.vowels.folds ↔ c ∈ g'.vowels.folds
  consonants : ∀ c, c ∈ g.consonants.folds ↔ c ∈ g'.consonants.folds
  caseSensitive : ∀ c, c ∈ g.caseSensitive.folds ↔ c ∈ g'.caseSensitive.folds

/-- For each sequence that stands in the text, the last pattern that finds it is the same in the
two grammars, or there is none in either. -/
def Grammar.SameWithin (g g' : Grammar) (cs : List Char) : Prop :=
  ∀ w, w ≠ [] → w <:+: cs → lastWith? g.patterns w = lastWith? g'.patterns w

variable {g g' : Grammar} {policy : Policy} {ps qs : List Pattern} {p : Pattern}
  {w cs rest before after : List Char} {i : Nat} {pieces : List Placed}

/-! ## The last pattern of a sequence -/

theorem lastWith?_eq_none : lastWith? ps w = none ↔ w ∉ ps.map (·.find) := by
  simp [lastWith?]

/-- The last pattern that finds a sequence stands at the last place of that sequence. -/
theorem lastWith?_eq_some :
    lastWith? ps w = some p ↔ ∃ i, LastAt (ps.map (·.find)) i w ∧ ps[i]? = some p := by
  constructor
  · intro h
    have hw : w ∈ ps.map (·.find) := by
      by_contra hw
      rw [lastWith?_eq_none.2 hw] at h
      cases h
    obtain ⟨i, hi⟩ := exists_lastAt hw
    obtain ⟨q, hq, -⟩ := hi.exists_pattern
    have hlast : lastWith? ps w = some q := getLast?_filter_find hi hq
    rw [h] at hlast
    exact ⟨i, hi, hlast ▸ hq⟩
  · rintro ⟨i, hi, hp⟩
    exact getLast?_filter_find hi hp

theorem mem_finds_congr (h : lastWith? ps w = lastWith? qs w) :
    w ∈ ps.map (·.find) ↔ w ∈ qs.map (·.find) := by
  rw [← not_iff_not, ← lastWith?_eq_none, ← lastWith?_eq_none, h]

theorem lastWith?_of_nodup (h : (ps.map (·.find)).Nodup) :
    lastWith? ps w = some p ↔ p ∈ ps ∧ p.find = w := by
  rw [lastWith?_eq_some]
  constructor
  · rintro ⟨i, hi, hp⟩
    refine ⟨List.mem_of_getElem? hp, ?_⟩
    simpa [hp] using hi.here
  · rintro ⟨hp, hfind⟩
    obtain ⟨i, hi⟩ := List.getElem?_of_mem hp
    have hhere : (ps.map (·.find))[i]? = some w := by simp [hi, hfind]
    refine ⟨i, ⟨hhere, fun j hj => Nat.le_of_eq ?_⟩, hi⟩
    have hlt := (List.getElem?_eq_some_iff.1 hj).1
    exact (List.getElem?_inj hlt h).1 (hj.trans hhere.symm)

/-- Where no two patterns find the same, their order does not matter. -/
theorem lastWith?_perm (h : ps.Perm qs) (hnodup : (ps.map (·.find)).Nodup) (w : List Char) :
    lastWith? ps w = lastWith? qs w := by
  have hnodup' : (qs.map (·.find)).Nodup := (h.map _).nodup_iff.1 hnodup
  refine Option.ext fun p => ?_
  rw [lastWith?_of_nodup hnodup, lastWith?_of_nodup hnodup', h.mem_iff]

theorem lastWith?_append (ps qs : List Pattern) (w : List Char) :
    lastWith? (ps ++ qs) w = (lastWith? qs w).or (lastWith? ps w) := by
  rw [lastWith?, List.filter_append, List.getLast?_append]
  rfl

theorem lastWith?_cons (p : Pattern) (qs : List Pattern) (w : List Char) :
    lastWith? (p :: qs) w = (lastWith? qs w).or (if p.find = w then some p else none) := by
  have hp : lastWith? [p] w = if p.find = w then some p else none := by
    by_cases h : p.find = w <;> simp [lastWith?, h]
  rw [← hp, ← lastWith?_append, List.singleton_append]

/-- A pattern is not missed where another sequence is asked for or a later pattern hides it. -/
theorem lastWith?_erase (h : p.find = w → w ∈ qs.map (·.find)) :
    lastWith? (ps ++ p :: qs) w = lastWith? (ps ++ qs) w := by
  rw [lastWith?_append, lastWith?_append, lastWith?_cons]
  by_cases hfind : p.find = w
  · have hlater : lastWith? qs w ≠ none := fun hnone => lastWith?_eq_none.1 hnone (h hfind)
    obtain ⟨q, hq⟩ := Option.ne_none_iff_exists'.1 hlater
    rw [hq, Option.some_or, Option.some_or]
  · rw [if_neg hfind, Option.or_none]

/-! ## Grammars that class the letters alike -/

theorem LetterClass.contains_congr {l l' : LetterClass} (h : ∀ c, c ∈ l.folds ↔ c ∈ l'.folds) :
    l.contains = l'.contains := by
  funext c
  rw [Bool.eq_iff_iff]
  simpa [LetterClass.contains] using h _

namespace Grammar.SameClasses

theorem patterns (g : Grammar) (ps : List Pattern) :
    g.SameClasses { g with patterns := ps } :=
  ⟨fun _ => Iff.rfl, fun _ => Iff.rfl, fun _ => Iff.rfl⟩

theorem isVowel_eq (h : g.SameClasses g') : g.isVowel = g'.isVowel :=
  LetterClass.contains_congr h.vowels

theorem isConsonant_eq (h : g.SameClasses g') : g.isConsonant = g'.isConsonant :=
  LetterClass.contains_congr h.consonants

theorem isPunctuation_eq (h : g.SameClasses g') : g.isPunctuation = g'.isPunctuation := by
  funext c
  rw [Grammar.isPunctuation, Grammar.isPunctuation, h.isVowel_eq, h.isConsonant_eq]

theorem normalize_eq (h : g.SameClasses g') : g.normalize = g'.normalize := by
  have hcase : g.isCaseSensitive = g'.isCaseSensitive :=
    LetterClass.contains_congr h.caseSensitive
  funext cs
  rw [Grammar.normalize, Grammar.normalize, hcase]

theorem resolve_eq (h : g.SameClasses g') (s : Surroundings) :
    p.resolve g policy s = p.resolve g' policy s := by
  refine Pattern.resolve_congr fun r _ c _ => ?_
  simp only [Condition.holds, h.isVowel_eq, h.isConsonant_eq, h.isPunctuation_eq]

end Grammar.SameClasses

/-! ## Grammars with the same patterns for what stands in a text -/

theorem Grammar.SameWithin.of_suffix (h : g.SameWithin g' cs) (hrest : rest <:+ cs) :
    g.SameWithin g' rest :=
  fun w hne hw => h w hne (hw.trans hrest.isInfix)

theorem Grammar.SameWithin.of_perm {first ps ps' last : List Pattern}
    (hg : g.patterns = first ++ ps ++ last) (h : ps.Perm ps')
    (hnodup : (ps.map (·.find)).Nodup) :
    g.SameWithin { g with patterns := first ++ ps' ++ last } cs := by
  intro w _ _
  rw [hg, lastWith?_append, lastWith?_append, lastWith?_append, lastWith?_append,
    lastWith?_perm h hnodup w]

/-- The patterns need not be the same where they find nothing in the text. -/
theorem Grammar.SameWithin.of_erase {ps qs : List Pattern} (hg : g.patterns = ps ++ p :: qs)
    (h : p.find ∈ qs.map (·.find) ∨ p.find = [] ∨ ¬ p.find <:+: cs) :
    g.SameWithin { g with patterns := ps ++ qs } cs := by
  intro w hne hw
  rw [hg]
  refine lastWith?_erase fun hfind => ?_
  subst hfind
  rcases h with hlater | hempty | hnowhere
  · exact hlater
  · exact absurd hempty hne
  · exact absurd hw hnowhere

namespace Transliterator

/-- The two transliterators take the same steps with a text, and so convert it alike. -/
def Alike (t t' : Transliterator) (text : List Char) : Prop :=
  t.explain text = t'.explain text ∧ t.convert text = t'.convert text

theorem longest_sameWithin_none (h : g.SameWithin g' rest)
    (none : (ofGrammar g policy).trie.longest rest = none) :
    (ofGrammar g' policy).trie.longest rest = .none := by
  refine ofGrammar_longest_eq_none.2 fun w hw hpre => ?_
  by_contra hne
  have hw' := (mem_finds_congr (h w hne hpre.isInfix)).2 hw
  exact hne (ofGrammar_longest_eq_none.1 none w hw' hpre)

/-- The same pattern is found, wherever it is declared. -/
theorem longest_sameWithin_some (h : g.SameWithin g' (w ++ after))
    (found : (ofGrammar g policy).trie.longest (w ++ after) = some ⟨i, w.length⟩) :
    ∃ i' p, (ofGrammar g' policy).trie.longest (w ++ after) = some ⟨i', w.length⟩ ∧
      g.patterns[i]? = some p ∧ g'.patterns[i']? = some p := by
  have hlongest := ofGrammar_longest.1 found
  obtain ⟨p, hp, -, hlast⟩ := exists_pattern_of_found found
  have hne : w ≠ [] := List.ne_nil_of_length_pos hlongest.pos
  -- the two grammars number their patterns differently, but the last one with `w` is the same
  have hsome := lastWith?_eq_some.2 ⟨i, hlast, hp⟩
  rw [h w hne (List.prefix_append w after).isInfix] at hsome
  obtain ⟨i', hlast', hp'⟩ := lastWith?_eq_some.1 hsome
  refine ⟨i', p, ofGrammar_longest.2 ⟨hlongest.pos, hlongest.le_length, ?_, ?_⟩, hp, hp'⟩
  · simpa using hlast'
  · -- a longer sequence would have been found by the first grammar, too
    intro v hv hpre
    by_cases hnil : v = []
    · simp [hnil]
    · exact hlongest.longest v ((mem_finds_congr (h v hnil hpre.isInfix)).2 hv) hpre

/-- **The rest of a text.** The pieces that the two grammars cut off become the same, though the
patterns may have other numbers. -/
theorem segments_sameWithin (hclasses : g.SameClasses g')
    (h : (ofGrammar g policy).trie.Cuts before rest pieces) (hsame : g.SameWithin g' rest) :
    ∃ pieces', (ofGrammar g' policy).trie.Cuts before rest pieces' ∧
      pieces.map (ofGrammar g policy).segment = pieces'.map (ofGrammar g' policy).segment := by
  -- what stands in the rest behind a piece stands in the rest before it
  induction h with
  | done => exact ⟨[], .done, rfl⟩
  | @char before cs c pieces none _ ih =>
    obtain ⟨tail, htail, heq⟩ := ih (hsame.of_suffix (List.suffix_cons c cs))
    refine ⟨_, .char (longest_sameWithin_none hsame none) htail, ?_⟩
    rw [List.map_cons, List.map_cons, segment_ofChar, segment_ofChar, heq]
  | @word before w after i pieces found _ ih =>
    obtain ⟨tail, htail, heq⟩ := ih (hsame.of_suffix (List.suffix_append w after))
    obtain ⟨i', p, found', hp, hp'⟩ := longest_sameWithin_some hsame found
    refine ⟨_, .word found' htail, ?_⟩
    rw [List.map_cons, List.map_cons, segment_ofWord before w after hp,
      segment_ofWord before w after hp', hclasses.resolve_eq, heq]

theorem alike_of_sameWithin (policy : Policy) {text : List Char} (hclasses : g.SameClasses g')
    (hsame : g.SameWithin g' (g.normalize text)) :
    (ofGrammar g policy).Alike (ofGrammar g' policy) text := by
  have hexplain : (ofGrammar g policy).explain text = (ofGrammar g' policy).explain text := by
    obtain ⟨pieces', hcuts, heq⟩ := segments_sameWithin hclasses
      ((ofGrammar g policy).cuts_tokens (g.normalize text)) hsame
    have hnormal : (ofGrammar g' policy).grammar.normalize text = g.normalize text :=
      congrFun hclasses.normalize_eq.symm text
    rw [explain, explain, hnormal, tokens_eq_of_cuts hcuts]
    exact heq
  exact ⟨hexplain, convert_eq_of_explain_eq hexplain⟩

/-- **Only patterns that matter.** Two grammars that class the letters alike convert a text alike
if they have the same last patterns for what stands in it. So it does not matter in which order
patterns are declared of which no two find the same, nor whether there is a pattern that a later one
hides or that finds nothing in the text. -/
theorem relevant_patterns (policy : Policy) (text : List Char) :
    (∀ g g' : Grammar, g.SameClasses g' → g.SameWithin g' (g.normalize text) →
      (ofGrammar g policy).Alike (ofGrammar g' policy) text) ∧
    (∀ (g : Grammar) (first ps ps' last : List Pattern), g.patterns = first ++ ps ++ last →
      ps.Perm ps' → (ps.map (·.find)).Nodup →
      (ofGrammar g policy).Alike (ofGrammar { g with patterns := first ++ ps' ++ last } policy)
        text) ∧
    ∀ (g : Grammar) (ps : List Pattern) (p : Pattern) (qs : List Pattern),
      g.patterns = ps ++ p :: qs →
      p.find ∈ qs.map (·.find) ∨ p.find = [] ∨ ¬ p.find <:+: g.normalize text →
      (ofGrammar g policy).Alike (ofGrammar { g with patterns := ps ++ qs } policy) text := by
  refine ⟨fun g g' => alike_of_sameWithin policy, fun g first ps ps' last hg hperm hnodup => ?_,
    fun g ps p qs hg h => ?_⟩
  · exact alike_of_sameWithin policy (.patterns g (first ++ ps' ++ last))
      (.of_perm hg hperm hnodup)
  · exact alike_of_sameWithin policy (.patterns g (ps ++ qs)) (.of_erase hg h)

/-- The grammar `overlapping` without the pattern that is declared again. -/
def thinned : Grammar := { overlapping with patterns := overlapping.patterns.eraseIdx 1 }

/-- The same conversion with the pattern that is hidden, with the patterns the other way round, and
with none of those that find nothing. -/
theorem thinned_relevant_patterns :
    (ofGrammar overlapping .strict).convert "Khak".toList = "xaQ".toList ∧
    (ofGrammar { thinned with patterns := thinned.patterns.reverse } .strict).convert
      "Khak".toList = "xaQ".toList ∧
    (ofGrammar thinned .strict).convert "Kak".toList = "QaQ".toList := by
  have horder : Trie.insertionOrder (thinned.patterns.map (·.find)) =
      (thinned.patterns.map (·.find)).zipIdx := List.mergeSort_of_pairwise (by decide)
  have hthinned : (ofGrammar thinned .strict).convert "Khak".toList = "xaQ".toList := by
    rw [ofGrammar, Trie.build, horder]
    decide +kernel
  obtain ⟨-, hperm, herase⟩ := relevant_patterns .strict "Khak".toList
  refine ⟨?_, ?_, ?_⟩
  · rw [(herase overlapping [⟨"kh".toList, "X".toList, some [⟨[⟨.after, some .vowel, false⟩],
      "x".toList⟩]⟩] ⟨"k".toList, "K".toList, none⟩ [⟨"k".toList, "Q".toList, none⟩] rfl
      (.inl (by decide))).2]
    exact hthinned
  · have hsame := (hperm thinned [] thinned.patterns thinned.patterns.reverse [] rfl
      (List.reverse_perm _).symm (by decide)).2
    exact hsame.symm.trans hthinned
  · have hsame : thinned.SameWithin
        { thinned with patterns := [] ++ [⟨"k".toList, "Q".toList, none⟩] }
        (thinned.normalize "Kak".toList) := .of_erase rfl (.inr (.inr (by decide +kernel)))
    rw [((relevant_patterns .strict "Kak".toList).1 _ _ (.patterns thinned _) hsame).2]
    decide +kernel

end Transliterator

end Translit
