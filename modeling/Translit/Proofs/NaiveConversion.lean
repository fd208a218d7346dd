import Translit.Proofs.Conditions
import Translit.Proofs.Cutting

/-!
# Conversion without a trie

The conversion as one would do it by hand: at each place all patterns are tried, and the conditions
of rules are judged on the whole text. It borrows neither the trie nor the scan.

* `Naive.beginning`, `Naive.chosen?`: the patterns that begin a text, and the one that is taken;
* `Naive.convert`: the conversion;
* `IsLongest.chosen?_eq`: the pattern taken is the one that a trie finds;
* `convert_eq_naive`: the two conversions are one.
-/

namespace Translit

namespace Naive

/-- The patterns whose find sequence, unless it is empty, begins the text. -/
def beginning (ps : List Pattern) (rest : List Char) : List Pattern :=
  ps.filter fun p => !p.find.isEmpty && p.find.isPrefixOf rest

/-- The length of the longest find sequence. -/
def longestLength (ps : List Pattern) : Nat := (ps.map (·.find.length)).max?.getD 0

/-- The pattern that is taken: of those that begin the text with the longest find sequence the one
declared last. -/
def chosen? (ps : List Pattern) (rest : List Char) : Option Pattern :=
  ((beginning ps rest).filter fun p => p.find.length = longestLength (beginning ps rest)).getLast?

theorem mem_beginning {ps : List Pattern} {rest : List Char} {p : Pattern} :
    p ∈ beginning ps rest ↔ p ∈ ps ∧ p.find ≠ [] ∧ p.find <+: rest := by
  simp [beginning]

theorem mem_beginning_of_chosen? {ps : List Pattern} {rest : List Char} {p : Pattern}
    (h : chosen? ps rest = some p) : p ∈ beginning ps rest :=
  (List.mem_filter.1 (List.mem_of_getLast? h)).1

theorem find_length_pos_of_chosen? {ps : List Pattern} {rest : List Char} {p : Pattern}
    (h : chosen? ps rest = some p) : 0 < p.find.length :=
  List.length_pos_iff.2 (mem_beginning.1 (mem_beginning_of_chosen? h)).2.1

/-- What a match of `p` becomes: the replacement of its first rule that holds, and its own one
without such a rule. -/
def replacement (g : Grammar) (policy : Policy) (cs : List Char) (p : Pattern)
    (start stop : Nat) : List Char :=
  match p.rules.find? (·.holdsAt g policy cs start stop) with
  | some r => r.replace
  | none => p.replace

/-- The conversion of a normalized text from the place `i` on. -/
def convertFrom (g : Grammar) (policy : Policy) (cs : List Char) (i : Nat) : List Char :=
  if hi : i < cs.length then
    match hp : chosen? g.patterns (cs.drop i) with
    | some p =>
      replacement g policy cs p i (i + p.find.length) ++
        convertFrom g policy cs (i + p.find.length)
    | none => cs[i] :: convertFrom g policy cs (i + 1)
  else []
termination_by cs.length - i
decreasing_by
  · have := find_length_pos_of_chosen? hp
    omega
  · omega

section Steps

variable {g : Grammar} {policy : Policy} {cs : List Char} {i : Nat} {p : Pattern} {c : Char}

theorem convertFrom_end (hi : cs.length ≤ i) : convertFrom g policy cs i = [] := by
  rw [convertFrom, dif_neg (Nat.not_lt.2 hi)]

theorem convertFrom_char (hi : cs[i]? = some c) (hp : chosen? g.patterns (cs.drop i) = none) :
    convertFrom g policy cs i = c :: convertFrom g policy cs (i + 1) := by
  obtain ⟨hlt, hc⟩ := List.getElem?_eq_some_iff.1 hi
  rw [convertFrom, dif_pos hlt]
  split
  · rename_i q hq
    rw [hp] at hq
    exact absurd hq (by simp)
  · rw [hc]

theorem convertFrom_word (hi : i < cs.length) (hp : chosen? g.patterns (cs.drop i) = some p) :
    convertFrom g policy cs i =
      replacement g policy cs p i (i + p.find.length) ++
        convertFrom g policy cs (i + p.find.length) := by
  rw [convertFrom, dif_pos hi]
  split
  · rename_i q hq
    rw [hp, Option.some.injEq] at hq
    rw [hq]
  · rename_i hq
    rw [hp] at hq
    exact absurd hq (by simp)

end Steps

/-- The conversion of a text. -/
def convert (g : Grammar) (policy : Policy) (text : List Char) : List Char :=
  convertFrom g policy (g.normalize text) 0

end Naive

open Naive

/-! ## The pattern that is taken -/

variable {g : Grammar} {policy : Policy} {ps : List Pattern} {rest w : List Char} {p : Pattern}
  {i : Nat} {m : Trie.Match}

theorem longestLength_eq (hp : p ∈ ps) (hmax : ∀ q ∈ ps, q.find.length ≤ p.find.length) :
    longestLength ps = p.find.length := by
  have hmax? : (ps.map (·.find.length)).max? = some p.find.length :=
    List.max?_eq_some_iff.2 ⟨List.mem_map_of_mem hp, by simpa using hmax⟩
  rw [longestLength, hmax?]
  rfl

/-- **The pattern that is taken is the one that a trie finds.** -/
theorem IsLongest.chosen?_eq (h : IsLongest (ps.map (·.find)) rest m)
    (hp : ps[m.word]? = some p) : chosen? ps rest = some p := by
  have hfind : p.find = rest.take m.length := by simpa [hp] using h.lastAt.here
  have hlen : p.find.length = m.length := by rw [hfind, List.length_take_of_le h.le_length]
  have hmem : p ∈ beginning ps rest :=
    mem_beginning.2 ⟨List.mem_of_getElem? hp, List.length_pos_iff.1 (hlen ▸ h.pos),
      hfind ▸ List.take_prefix _ _⟩
  have hmax : longestLength (beginning ps rest) = p.find.length := by
    refine longestLength_eq hmem fun r hr => ?_
    obtain ⟨hr, -, hpre⟩ := mem_beginning.1 hr
    exact hlen ▸ h.longest _ (List.mem_map_of_mem hr) hpre
  have hfilter : ((beginning ps rest).filter fun r => r.find.length = p.find.length) =
      ps.filter fun r => r.find = rest.take m.length := by
    rw [beginning, List.filter_filter]
    refine List.filter_congr fun r _ => ?_
    rw [Bool.eq_iff_iff]
    simp only [Bool.and_eq_true, decide_eq_true_eq, Bool.not_eq_true', List.isPrefixOf_iff_prefix]
    constructor
    · rintro ⟨hr, -, hpre⟩
      rw [List.prefix_iff_eq_take.1 hpre, hr, hlen]
    · intro hr
      rw [hr, ← hfind]
      exact ⟨rfl, by simpa [List.isEmpty_iff] using (mem_beginning.1 hmem).2.1,
        (mem_beginning.1 hmem).2.2⟩
  rw [chosen?, hmax, hfilter]
  exact getLast?_filter_find h.lastAt hp

theorem chosen?_eq_none (h : ∀ w ∈ ps.map (·.find), w <+: rest → w = []) :
    chosen? ps rest = none := by
  have : beginning ps rest = [] := by
    refine List.eq_nil_iff_forall_not_mem.2 fun q hq => ?_
    obtain ⟨hmem, hne, hpre⟩ := mem_beginning.1 hq
    exact hne (h _ (List.mem_map_of_mem hmem) hpre)
  rw [chosen?, this]
  rfl

/-! ## The conversions compared -/

theorem replacement_eq_resolve (g : Grammar) (policy : Policy) (p : Pattern)
    (before w after : List Char) :
    replacement g policy (before.reverse ++ (w ++ after)) p before.length
        (before.length + w.length) =
      (p.resolve g policy ⟨some before, some after⟩).text := by
  rw [← ofSpan_append before w after, ((p.resolve_isFirst g policy _).text_eq)]
  simp only [replacement, Rule.holds_ofSpan]
  cases p.rules.find? _ <;> rfl

namespace Transliterator

/-- **The rest of a text.** What its pieces become is its conversion by hand. -/
theorem output_eq_convertFrom {before : List Char} {pieces : List Placed}
    (h : (ofGrammar g policy).trie.Cuts before rest pieces) :
    pieces.flatMap (ofGrammar g policy).output =
      convertFrom g policy (before.reverse ++ rest) before.length := by
  induction h with
  | done =>
    rw [convertFrom_end (by simp)]
    rfl
  | @char before cs c pieces none _ ih =>
    have hnone : chosen? g.patterns ((before.reverse ++ c :: cs).drop before.length) = .none := by
      rw [drop_whole]
      exact chosen?_eq_none (ofGrammar_longest_eq_none.1 none)
    rw [List.flatMap_cons, output_ofChar, ih, whole_char, List.length_cons,
      convertFrom_char (c := c) (by simp) hnone, List.singleton_append]
  | @word before w after i pieces found _ ih =>
    have hlongest := ofGrammar_longest.1 found
    obtain ⟨p, hp, hfind, -⟩ := exists_pattern_of_found found
    have hchosen : chosen? g.patterns ((before.reverse ++ (w ++ after)).drop before.length) =
        some p := by
      rw [drop_whole]
      exact hlongest.chosen?_eq hp
    have hlt : before.length < (before.reverse ++ (w ++ after)).length := by
      have : 0 < w.length := hlongest.pos
      simp only [List.length_append, List.length_reverse]
      omega
    have hlen : (w.reverse ++ before).length = before.length + w.length := by
      simp [Nat.add_comm]
    rw [List.flatMap_cons, output_ofWord before w after hp, ih, whole_word, hlen,
      convertFrom_word hlt hchosen, hfind, replacement_eq_resolve]

/-- **The conversion with a trie is the conversion by hand**, for every grammar, policy and text. -/
theorem convert_eq_naive (g : Grammar) (policy : Policy) (text : List Char) :
    (ofGrammar g policy).convert text = Naive.convert g policy text :=
  output_eq_convertFrom ((ofGrammar g policy).cuts_tokens (g.normalize text))

end Transliterator

end Translit
