import Translit.Grammar.Phonetic
import Translit.Proofs.NaiveConversion
import Translit.Proofs.Normalization

/-!
# Conversions without Roman letters

A grammar that has a pattern for each Roman letter, digit and sign on its own, and that writes none
of them, leaves none in a text. What it writes begins no pattern either, a few marks apart, so there
is nothing to convert in a text that is converted already.

* `Pattern.replacements`, `mem_output`: where the characters of a conversion come from;
* `convert_eq_self`: a text in which no pattern begins;
* `Grammar.Romanized`: what a grammar has to be;
* `embedded_converts_once`: the phonetic grammar.
-/

namespace Translit

open Unicode (IsSmall Ranges lowerRuns isSmall_of_not_contains dottedCapitalI)

variable {g : Grammar} {policy : Policy} {c : Char} {before rest text : List Char} {p : Pattern}
  {pieces : List Placed}

/-! ## Where characters come from -/

/-- Everything that a match of the pattern may become. -/
def Pattern.replacements (p : Pattern) : List (List Char) := p.replace :: p.rules.map (·.replace)

theorem Pattern.resolve_mem (g : Grammar) (policy : Policy) (p : Pattern) (s : Surroundings) :
    (p.resolve g policy s).text ∈ p.replacements := by
  rw [Pattern.resolve_eq]
  split
  · rename_i r i h
    have hr : r ∈ p.rules := List.fst_mem_of_mem_zipIdx (List.mem_of_find?_eq_some h)
    exact List.mem_cons_of_mem _ (List.mem_map_of_mem hr)
  · exact List.mem_cons_self

namespace Transliterator

/-- **Where a character of a conversion comes from**: it stands in the text and is found by no
pattern on its own, or it stands in a replacement of a pattern that is found in the text. -/
theorem mem_output (h : (ofGrammar g policy).trie.Cuts before rest pieces)
    (hc : c ∈ pieces.flatMap (ofGrammar g policy).output) :
    (c ∈ rest ∧ [c] ∉ g.patterns.map (·.find)) ∨
      ∃ p ∈ g.patterns, p.find <:+: rest ∧ ∃ r ∈ p.replacements, c ∈ r := by
  induction h with
  | done => cases hc
  | @char before cs a pieces none _ ih =>
    rw [List.flatMap_cons, output_ofChar, List.singleton_append, List.mem_cons] at hc
    rcases hc with rfl | hc
    · refine .inl ⟨List.mem_cons_self, fun hfound => ?_⟩
      have := ofGrammar_longest_eq_none.1 none [c] hfound (by simp)
      cases this
    · rcases ih hc with ⟨hmem, hnot⟩ | ⟨p, hp, hfind, hr⟩
      · exact .inl ⟨List.mem_cons_of_mem a hmem, hnot⟩
      · exact .inr ⟨p, hp, hfind.trans (List.suffix_cons a cs).isInfix, hr⟩
  | @word before w after i pieces found _ ih =>
    obtain ⟨p, hp, hfind, -⟩ := exists_pattern_of_found found
    rw [List.flatMap_cons, output_ofWord before w after hp, List.mem_append] at hc
    rcases hc with hc | hc
    · refine .inr ⟨p, List.mem_of_getElem? hp, ?_, _, p.resolve_mem g policy _, hc⟩
      exact hfind ▸ (List.prefix_append w after).isInfix
    · rcases ih hc with ⟨hmem, hnot⟩ | ⟨p, hp, hfind, hr⟩
      · exact .inl ⟨List.mem_append_right w hmem, hnot⟩
      · exact .inr ⟨p, hp, hfind.trans (List.suffix_append w after).isInfix, hr⟩

theorem output_eq_self (h : (ofGrammar g policy).trie.Cuts before rest pieces)
    (hrest : ∀ c ∈ rest, ∀ p ∈ g.patterns, c ∉ p.find.head?) :
    pieces.flatMap (ofGrammar g policy).output = rest := by
  induction h with
  | done => rfl
  | @char before cs a pieces none _ ih =>
    rw [List.flatMap_cons, output_ofChar, List.singleton_append,
      ih fun c hc => hrest c (List.mem_cons_of_mem a hc)]
  | @word before w after i pieces found _ ih =>
    obtain ⟨p, hp, hfind, -⟩ := exists_pattern_of_found found
    obtain ⟨a, w, rfl⟩ := List.exists_cons_of_length_pos (Trie.length_pos_of_longest found)
    exact absurd (by simp [hfind]) (hrest a (by simp) p (List.mem_of_getElem? hp))

/-- A text stays in which there is nothing to normalize and no pattern begins. -/
theorem convert_eq_self (hsettled : ∀ c ∈ text, g.Settled c)
    (hbegin : ∀ c ∈ text, ∀ p ∈ g.patterns, c ∉ p.find.head?) :
    (ofGrammar g policy).convert text = text := by
  have hnormal : (ofGrammar g policy).grammar.normalize text = text :=
    Grammar.normalize_eq_self hsettled
  rw [convert, hnormal]
  exact output_eq_self ((ofGrammar g policy).cuts_tokens text) hbegin

end Transliterator

/-! ## Grammars of Roman letters -/

/-- The Roman letters and digits, and two signs that are typed with them. -/
def isRoman (c : Char) : Bool := c.isAlphanum || "`$".toList.contains c

/-- The letters and signs of the script that is written: Bangla with the dandas, and the two
joiners. -/
def indic : Ranges := [(0x964, 0x9FF), (0x200C, 0x200D)]

/-- The marks that patterns find and write. -/
def marks : List Char := ".:^".toList

/-- The ASCII characters. -/
def ascii : List Char := (List.range 128).map Char.ofNat

theorem lt_of_isRoman (h : isRoman c = true) : c.toNat < 128 := by
  have hupper (h : c.isUpper = true) : c.toNat ≤ 'Z'.toNat := (of_decide_eq_true h).2
  have hlower (h : c.isLower = true) : c.toNat ≤ 'z'.toNat :=
    of_decide_eq_true (Bool.and_eq_true_iff.1 h).2
  have hdigit (h : c.isDigit = true) : c.toNat ≤ '9'.toNat :=
    of_decide_eq_true (Bool.and_eq_true_iff.1 h).2
  have hsigns : ∀ c ∈ "`$".toList, c.toNat < 128 := List.all_iff_forall_prop.1 (by decide)
  have hcases : (((c.isUpper || c.isLower) || c.isDigit) || "`$".toList.contains c) = true := h
  simp only [Bool.or_eq_true, List.contains_iff_mem] at hcases
  rcases hcases with ((h | h) | h) | h
  · exact Nat.lt_of_le_of_lt (hupper h) (by decide)
  · exact Nat.lt_of_le_of_lt (hlower h) (by decide)
  · exact Nat.lt_of_le_of_lt (hdigit h) (by decide)
  · exact hsigns c h

theorem mem_ascii (h : c.toNat < 128) : c ∈ ascii :=
  List.mem_map.2 ⟨c.toNat, List.mem_range.2 h, Char.ofNat_toNat c⟩

theorem indic_iff : indic.contains c = true ↔
    (0x964 ≤ c.toNat ∧ c.toNat ≤ 0x9FF) ∨ 0x200C ≤ c.toNat ∧ c.toNat ≤ 0x200D := by
  simp [indic, Ranges.contains]

/-- There are no capitals in the script that is written. -/
theorem isSmall_of_indic (h : indic.contains c = true) : IsSmall c := by
  rw [indic_iff] at h
  have hruns : ∀ r ∈ lowerRuns,
      r.last < 0x964 ∨ 0x9FF < r.first ∧ (r.last < 0x200C ∨ 0x200D < r.first) := by
    decide +kernel
  refine isSmall_of_not_contains ?_ fun r hr => ?_
  · rintro rfl
    exact absurd h (by decide)
  · rw [← Bool.not_eq_true, Unicode.LowerRun.contains_iff]
    have := hruns r hr
    omega

/-- The characters that are found on their own. -/
def Grammar.singles (g : Grammar) : List Char :=
  g.patterns.filterMap fun p =>
    match p.find with
    | [c] => some c
    | _ => none

theorem mem_finds_of_mem_singles (h : c ∈ g.singles) : [c] ∈ g.patterns.map (·.find) := by
  obtain ⟨p, hp, hc⟩ := List.mem_filterMap.1 h
  refine List.mem_map.2 ⟨p, hp, ?_⟩
  split at hc
  · rename_i a hfind
    rw [hfind, Option.some.inj hc]
  · cases hc

/-- The grammar has a pattern for each Roman character and writes another script. -/
structure Grammar.Romanized (g : Grammar) : Prop where
  /-- A Roman character is found on its own, or it is a capital that is not kept. -/
  found : ∀ c ∈ ascii, isRoman c = true → c ∈ g.singles ∨ ¬ g.Settled c
  /-- What patterns find begins with a Roman character, a mark or a comma. -/
  begins : ∀ p ∈ g.patterns, ∀ c ∈ p.find.head?, isRoman c = true ∨ c ∈ marks ∨ c = ','
  /-- What patterns write belongs to the other script, but for marks that they found. -/
  writes : ∀ p ∈ g.patterns, ∀ r ∈ p.replacements, ∀ c ∈ r,
    indic.contains c = true ∨ c ∈ marks ∧ c ∈ p.find

instance (g : Grammar) : Decidable g.Romanized :=
  decidable_of_iff
    (((ascii.filter isRoman).all fun c => decide (c ∈ g.singles ∨ ¬ g.Settled c)) ∧
      (g.patterns.all fun p => p.find.head?.all fun c =>
        isRoman c || (marks.contains c || c == ',')) ∧
      g.patterns.all fun p => p.replacements.all fun r => r.all fun c =>
        indic.contains c || marks.contains c && p.find.contains c) <| by
    simp only [List.all_eq_true, Option.all_eq_true, List.mem_filter, and_imp, Bool.or_eq_true,
      Bool.and_eq_true, List.contains_iff_mem, decide_eq_true_eq, beq_iff_eq]
    exact ⟨fun ⟨h₁, h₂, h₃⟩ => ⟨h₁, h₂, h₃⟩, fun ⟨h₁, h₂, h₃⟩ => ⟨h₁, h₂, h₃⟩⟩

theorem not_isRoman_of_mem_marks : ∀ c ∈ marks, isRoman c = false :=
  List.all_iff_forall_prop.1 (by decide)

namespace Transliterator

/-- What is left in a conversion: characters of the text that are not Roman, and the other
script. -/
theorem mem_convert_romanized (hg : g.Romanized) (hc : c ∈ (ofGrammar g policy).convert text) :
    (c ∈ g.normalize text ∧ isRoman c = false) ∨ indic.contains c = true := by
  rcases mem_output ((ofGrammar g policy).cuts_tokens (g.normalize text)) hc with
    ⟨hmem, hnot⟩ | ⟨p, hp, hfind, r, hr, hcr⟩
  · refine .inl ⟨hmem, Bool.eq_false_iff.2 fun hroman => ?_⟩
    rcases hg.found c (mem_ascii (lt_of_isRoman hroman)) hroman with hsingle | hcapital
    · exact hnot (mem_finds_of_mem_singles hsingle)
    · exact hcapital (Grammar.settled_of_mem_normalize hmem)
  · rcases hg.writes p hp r hr c hcr with hindic | ⟨hmark, hmem⟩
    · exact .inr hindic
    · exact .inl ⟨hfind.subset hmem, not_isRoman_of_mem_marks c hmark⟩

/-- **No Roman character is left.** -/
theorem not_isRoman_of_mem_convert (hg : g.Romanized)
    (hc : c ∈ (ofGrammar g policy).convert text) : isRoman c = false := by
  rcases mem_convert_romanized hg hc with ⟨-, hroman⟩ | hindic
  · exact hroman
  · refine Bool.eq_false_iff.2 fun hroman => ?_
    have := lt_of_isRoman hroman
    rw [indic_iff] at hindic
    omega

/-- **A conversion is converted already**, unless there are marks in it. -/
theorem convert_convert (hg : g.Romanized)
    (hmarks : ∀ c ∈ g.normalize text, c ∉ marks ∧ c ≠ ',') :
    (ofGrammar g policy).convert ((ofGrammar g policy).convert text) =
      (ofGrammar g policy).convert text := by
  refine convert_eq_self (fun c hc => ?_) fun c hc p hp hhead => ?_
  · rcases mem_convert_romanized hg hc with ⟨hmem, -⟩ | hindic
    · exact Grammar.settled_of_mem_normalize hmem
    · exact .inr (isSmall_of_indic hindic)
  · rcases mem_convert_romanized hg hc with ⟨hmem, hroman⟩ | hindic
    · rcases hg.begins p hp c hhead with h | h | h
      · rw [hroman] at h
        cases h
      · exact (hmarks c hmem).1 h
      · exact (hmarks c hmem).2 h
    · have hlow : ∀ c ∈ ',' :: marks, c.toNat < 128 := List.all_iff_forall_prop.1 (by decide)
      have : c.toNat < 128 := by
        rcases hg.begins p hp c hhead with h | h | h
        · exact lt_of_isRoman h
        · exact hlow c (List.mem_cons_of_mem _ h)
        · exact hlow c (h ▸ List.mem_cons_self)
      rw [indic_iff] at hindic
      omega

theorem exists_ok_of_any {ε α : Type} {x : Except ε α} {holds : α → Bool}
    (h : x.toOption.any holds = true) : ∃ a, x = .ok a ∧ holds a = true := by
  cases x with
  | error e => cases h
  | ok a => exact ⟨a, rfl, h⟩

theorem embedded_romanized : ∃ g, Grammar.embedded = .ok g ∧ g.Romanized := by
  have h : (Grammar.embedded.toOption.any fun g => decide g.Romanized) = true := by decide +kernel
  obtain ⟨g, hg, hromanized⟩ := exists_ok_of_any h
  exact ⟨g, hg, of_decide_eq_true hromanized⟩

/-- **The phonetic grammar leaves no Roman letter, digit or sign in a text**, and converts a text
once: where there are no marks in the normalized text, a second conversion changes nothing. -/
theorem embedded_converts_once :
    ∃ g, Grammar.embedded = .ok g ∧ ∀ (policy : Policy) (text : List Char),
      (∀ c ∈ (ofGrammar g policy).convert text, c.isAlphanum = false ∧ c ∉ "`$".toList) ∧
      ((∀ c ∈ g.normalize text, c ∉ ".:^,".toList) →
        (ofGrammar g policy).convert ((ofGrammar g policy).convert text) =
          (ofGrammar g policy).convert text) := by
  obtain ⟨g, hg, hromanized⟩ := embedded_romanized
  refine ⟨g, hg, fun policy text => ⟨fun c hc => ?_, fun hmarks => ?_⟩⟩
  · simpa [isRoman] using not_isRoman_of_mem_convert hromanized hc
  · refine convert_convert hromanized fun c hc => ?_
    simpa [marks, and_assoc] using hmarks c hc

/-- The Kelvin sign is normalized to the letter k, which is converted, once. -/
theorem kelvin_converts_once :
    ∃ g, Grammar.embedded = .ok g ∧ g.normalize ['\u212a'] = ['k'] ∧
      (∀ c ∈ g.normalize ['\u212a'], c ∉ ".:^,".toList) ∧
      'ক' ∈ (ofGrammar g .strict).convert ['\u212a'] ∧ 'ক'.isAlphanum = false ∧
      (ofGrammar g .strict).convert ((ofGrammar g .strict).convert ['\u212a']) = ['ক'] := by
  have h : (Grammar.embedded.toOption.any fun g => g.normalize ['\u212a'] == ['k'] &&
      Naive.chosen? g.patterns (['k'].drop 0) == some ⟨['k'], ['ক'], none⟩) = true := by
    decide +kernel
  obtain ⟨g, hg, honce⟩ := embedded_converts_once
  obtain ⟨g', hg', hlookup⟩ := exists_ok_of_any h
  obtain rfl : g = g' := Except.ok.inj (hg.symm.trans hg')
  rw [Bool.and_eq_true, beq_iff_eq, beq_iff_eq] at hlookup
  obtain ⟨hnormal, hchosen⟩ := hlookup
  have hconvert : (ofGrammar g .strict).convert ['\u212a'] = ['ক'] := by
    rw [convert_eq_naive, Naive.convert, hnormal, Naive.convertFrom_word (by decide) hchosen,
      Naive.convertFrom_end (by decide)]
    rfl
  have hmarks : ∀ c ∈ g.normalize ['\u212a'], c ∉ ".:^,".toList := by
    rw [hnormal]
    exact List.all_iff_forall_prop.1 (by decide)
  have hmem : 'ক' ∈ (ofGrammar g .strict).convert ['\u212a'] := by
    rw [hconvert]
    decide
  obtain ⟨hroman, hagain⟩ := honce .strict ['\u212a']
  exact ⟨g, hg, hnormal, hmarks, hmem, (hroman 'ক' hmem).1, (hagain hmarks).trans hconvert⟩

end Transliterator

end Translit
