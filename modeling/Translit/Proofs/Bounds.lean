import Translit.Proofs.Conditions
import Translit.Proofs.Json.Records
import Translit.Proofs.Tokens
import Translit.Proofs.Trie.Checked

/-!
# No index outside

A scan and a conversion once more, with a check of each index before it is used. They have no
outcome if a check fails, and no check ever fails: a scan reads the text and the trie inside, its
tokens name patterns of the grammar, and what they stand for lies in the text.

* `Trie.nextToken?`, `Trie.scan?`, `Transliterator.convert?`, `Transliterator.explain?`: a scan and
  a conversion with checks;
* `Trie.nextToken?_eq`, `Trie.scanFrom?_eq`: a step and all steps of a scan;
* `Transliterator.output?_eq`, `Transliterator.segment?_eq`: what a token becomes;
* `Transliterator.convert?_eq`, `Transliterator.explain?_eq`: what comes of a conversion;
* `Trie.arena_in_bounds`: the array of a trie, and the checks, all together.
-/

namespace Translit

/-! ## The operations -/

/-- The characters from `start` to `stop`, which must not lie outside the text. -/
def slice? (cs : List Char) (start stop : Nat) : Option (List Char) :=
  if start ≤ stop ∧ stop ≤ cs.length then some ((cs.drop start).take (stop - start)) else none

/-- The token at a place of a text, if the text has not ended there; with checks. -/
def Trie.nextToken? (t : Trie) (cs : List Char) (pos : Nat) : Option (Option Token) :=
  if cs.length ≤ pos then some none
  else do
    match ← t.longestMatch? cs pos with
    | some m => return some (.word m.word pos (pos + m.length))
    | none => return some (.literal pos (← cs[pos]?))

/-- The tokens from a place on, with checks, also that each token leads further on in the text. -/
def Trie.scanFrom? (t : Trie) (cs : List Char) (pos : Nat) : Option (List Token) := do
  match ← t.nextToken? cs pos with
  | none => return []
  | some tok =>
    if _h : pos < tok.stop ∧ tok.stop ≤ cs.length then return tok :: (← t.scanFrom? cs tok.stop)
    else none
termination_by cs.length - pos

/-- `Trie.scan`, with checks. -/
def Trie.scan? (t : Trie) (cs : List Char) : Option (List Token) := t.scanFrom? cs 0

namespace Transliterator

/-- `Transliterator.ofGrammar`, with checks. -/
def ofGrammar? (grammar : Grammar) (policy : Policy) : Option Transliterator := do
  let trie ← Trie.build? (grammar.patterns.map (·.find))
  return { grammar, trie, policy }

/-- What a token of a text becomes, with checks. -/
def output? (t : Transliterator) (cs : List Char) : Token → Option (List Char)
  | .literal _ c => some [c]
  | .word i start stop => do
    let p ← t.grammar.patterns[i]?
    return (p.resolve t.grammar t.policy (.ofSpan cs start stop)).text

/-- `Transliterator.convert`, with checks. -/
def convert? (t : Transliterator) (text : List Char) : Option (List Char) := do
  let cs := t.grammar.normalize text
  let outputs ← (← t.trie.scan? cs).mapM (t.output? cs)
  return outputs.flatten

/-- The step that a token of a text stands for, with checks. -/
def segment? (t : Transliterator) (cs : List Char) : Token → Option Segment
  | .literal pos c => some { start := pos, stop := pos + 1, source := [c], output := [c] }
  | .word i start stop => do
    let p ← t.grammar.patterns[i]?
    let r := p.resolve t.grammar t.policy (.ofSpan cs start stop)
    let source ← slice? cs start stop
    return { start, stop, source, output := r.text, pattern? := some p.find, rule? := r.rule? }

/-- `Transliterator.explain`, with checks. -/
def explain? (t : Transliterator) (text : List Char) : Option (List Segment) := do
  let cs := t.grammar.normalize text
  (← t.trie.scan? cs).mapM (t.segment? cs)

end Transliterator

/-! ## A scan -/

namespace Trie

variable {t : Trie} {cs : List Char} {pos : Nat} {ts : List Token}

/-- **A step** uses no index outside. -/
theorem nextToken?_eq (ht : t.WellFormed) (cs : List Char) (pos : Nat) :
    t.nextToken? cs pos = some (t.next? cs pos) := by
  unfold nextToken? next?
  by_cases hpos : cs.length ≤ pos
  · rw [if_pos hpos, List.getElem?_eq_none hpos]
  · have hchar := List.getElem?_eq_getElem (Nat.lt_of_not_le hpos)
    rw [if_neg hpos, longestMatch?_eq ht, hchar]
    cases t.longestMatch cs pos <;> rfl

/-- **All steps** of a scan use no index outside. -/
theorem scanFrom?_eq (ht : t.WellFormed) (h : t.Emits cs pos ts) :
    t.scanFrom? cs pos = some ts := by
  induction h with
  | done none =>
    rw [scanFrom?, nextToken?_eq ht, none]
    rfl
  | step some _ ih =>
    rw [scanFrom?, nextToken?_eq ht, some]
    simp only [Option.bind_eq_bind, Option.bind_some, dif_pos (next?_moves some), ih]
    rfl

theorem scan?_eq (ht : t.WellFormed) (cs : List Char) : t.scan? cs = some (t.scan cs) :=
  scanFrom?_eq ht (emits_scan t cs)

end Trie

/-! ## A conversion -/

theorem map_token_ofTokensFrom (before rest : List Char) (ts : List Token) :
    (Placed.ofTokensFrom before rest ts).map (·.token) = ts := by
  induction ts generalizing before rest with
  | nil => rfl
  | cons tok ts ih =>
    rw [Placed.ofTokensFrom, List.map_cons, ih]

theorem slice?_append (before w after : List Char) :
    slice? (before.reverse ++ (w ++ after)) before.length (before.length + w.length) = some w := by
  have hle : before.length ≤ before.length + w.length ∧
      before.length + w.length ≤ (before.reverse ++ (w ++ after)).length := by
    simp only [List.length_append, List.length_reverse]
    omega
  rw [slice?, if_pos hle, drop_whole, Nat.add_sub_cancel_left, List.take_left]

namespace Transliterator

variable {g : Grammar} {policy : Policy} {cs : List Char} {piece : Placed}

/-- What a token of a text stands for: a character, or what a pattern of the grammar finds, in its
place. -/
theorem mem_tokens_cases (h : piece ∈ (ofGrammar g policy).tokens cs) :
    (∃ b c a, piece = Placed.ofChar b c a) ∨
    ∃ i b w a p, cs = b.reverse ++ (w ++ a) ∧ g.patterns[i]? = some p ∧
      piece = Placed.ofWord i b w a := by
  obtain ⟨b, c, a, -, rfl⟩ | ⟨i, b, w, a, hcs, hfound, rfl⟩ := (cuts_tokens _ cs).mem_cases h
  · exact .inl ⟨b, c, a, rfl⟩
  · obtain ⟨p, hp, -, -⟩ := exists_pattern_of_found hfound
    exact .inr ⟨i, b, w, a, p, hcs, hp, rfl⟩

theorem output?_eq (h : piece ∈ (ofGrammar g policy).tokens cs) :
    (ofGrammar g policy).output? cs piece.token = some ((ofGrammar g policy).output piece) := by
  obtain ⟨b, c, a, rfl⟩ | ⟨i, b, w, a, p, rfl, hp, rfl⟩ := mem_tokens_cases h
  · rfl
  · rw [output_ofWord b w a hp, ← ofSpan_append]
    simp only [output?, Placed.ofWord, ofGrammar, hp, Option.bind_eq_bind, Option.bind_some]
    rfl

theorem segment?_eq (h : piece ∈ (ofGrammar g policy).tokens cs) :
    (ofGrammar g policy).segment? cs piece.token = some ((ofGrammar g policy).segment piece) := by
  obtain ⟨b, c, a, rfl⟩ | ⟨i, b, w, a, p, rfl, hp, rfl⟩ := mem_tokens_cases h
  · rfl
  · rw [segment_ofWord b w a hp, ← ofSpan_append]
    simp only [segment?, Placed.ofWord, ofGrammar, hp, slice?_append, Option.bind_eq_bind,
      Option.bind_some]
    rfl

/-- The tokens of a text, one by one. -/
theorem mapM_scan {α : Type} {f : Token → Option α} {f' : Placed → α}
    (h : ∀ piece ∈ (ofGrammar g policy).tokens cs, f piece.token = some (f' piece)) :
    ((ofGrammar g policy).trie.scan cs).mapM f =
      some (((ofGrammar g policy).tokens cs).map f') := by
  have htokens : ((ofGrammar g policy).tokens cs).map (·.token) =
      (ofGrammar g policy).trie.scan cs := map_token_ofTokensFrom _ _ _
  apply Json.Value.mapM_eq_some_of_forall₂
  rw [← htokens, List.forall₂_map_left_iff, List.forall₂_map_right_iff, List.forall₂_same]
  exact h

theorem scan?_ofGrammar (g : Grammar) (policy : Policy) (cs : List Char) :
    (ofGrammar g policy).trie.scan? cs = some ((ofGrammar g policy).trie.scan cs) :=
  Trie.scan?_eq (Trie.wellFormed_build _) cs

/-- **A conversion** uses no index outside. -/
theorem convert?_eq (g : Grammar) (policy : Policy) (text : List Char) :
    (ofGrammar g policy).convert? text = some ((ofGrammar g policy).convert text) := by
  rw [convert?, scan?_ofGrammar]
  simp only [Option.bind_eq_bind, Option.bind_some]
  rw [mapM_scan fun _ => output?_eq, convert, List.flatMap]
  rfl

theorem explain?_eq (g : Grammar) (policy : Policy) (text : List Char) :
    (ofGrammar g policy).explain? text = some ((ofGrammar g policy).explain text) := by
  rw [explain?, scan?_ofGrammar]
  exact mapM_scan fun _ => segment?_eq

end Transliterator

/-! ## All together -/

namespace Trie

open Transliterator

/-- **The array of a trie, and no index outside.** After each insertion of fewer than 2³² words with
fewer than 2³² - 1 characters in all, and so in the end, the array has the shape `Arena`: children
in order and further on, one parent and one way for each node but the root, one node for each
beginning of a word, and words in their places. Building it uses no index outside and keeps no
number that does not fit in 32 bits; nor do the searches, a scan, and a conversion and its
explanation use an index outside. -/
theorem arena_in_bounds {words : List (List Char)} (hcount : words.length < 2 ^ 32)
    (htotal : (words.map List.length).sum < 2 ^ 32 - 1) :
    (∀ entries, entries <+: insertionOrder words →
      (ofEntries entries).Arena (entries.map (·.1)) words.length) ∧
    (build words).Arena words words.length ∧
    build? words = some (build words) ∧
    (∀ cs, (build words).lookup? cs = some ((build words).lookup cs)) ∧
    (∀ cs start,
      (build words).longestMatch? cs start = some ((build words).longestMatch cs start)) ∧
    (∀ cs, (build words).scan? cs = some ((build words).scan cs)) ∧
    ∀ (g : Grammar) (policy : Policy) (text : List Char), g.patterns.map (·.find) = words →
      (ofGrammar? g policy >>= (·.convert? text)) = some ((ofGrammar g policy).convert text) ∧
      (ofGrammar? g policy >>= (·.explain? text)) = some ((ofGrammar g policy).explain text) := by
  have ht := wellFormed_build words
  have hbuild := build?_eq hcount htotal
  refine ⟨fun _ => arena_upTo, arena_build words, hbuild, lookup?_eq ht, longestMatch?_eq ht,
    scan?_eq ht, ?_⟩
  rintro g policy text rfl
  have hgrammar : ofGrammar? g policy = some (ofGrammar g policy) := by
    rw [ofGrammar?, hbuild]
    rfl
  rw [hgrammar]
  exact ⟨convert?_eq g policy text, explain?_eq g policy text⟩

/-- Words that share beginnings: one of them begins two others, and one is there twice. -/
def sharing : Grammar where
  vowels := .ofText "a".toList
  consonants := .ofText "hst".toList
  caseSensitive := .ofText "".toList
  patterns := [
    ⟨"sht".toList, "T".toList, none⟩, ⟨"sh".toList, "S".toList, none⟩,
    ⟨"s".toList, "c".toList, none⟩,
    ⟨"s".toList, "z".toList, some [⟨[⟨.after, some .vowel, false⟩], "x".toList⟩]⟩]
  disjoint := LetterClass.common?_eq_none_iff.1 (by decide)

/-- There is a root and a node for each of the three beginnings, as soon as the longest word is
there. With checks the words are converted as without. -/
theorem sharing_arena_in_bounds :
    (ofEntries [("sht".toList, 0)]).nodeCount = 4 ∧
    (build (sharing.patterns.map (·.find))).nodeCount = 4 ∧
    (ofGrammar? sharing .strict >>= (·.convert? "shashtsas".toList)) = some "SaTxaz".toList := by
  have horder : insertionOrder (sharing.patterns.map (·.find)) =
      (sharing.patterns.map (·.find)).zipIdx := List.mergeSort_of_pairwise (by decide)
  have hfirst : [("sht".toList, 0)] <+: insertionOrder (sharing.patterns.map (·.find)) := by
    rw [horder]
    decide
  obtain ⟨hupTo, hbuild, -, -, -, -, hconvert⟩ :=
    @arena_in_bounds (sharing.patterns.map (·.find)) (by decide) (by decide)
  refine ⟨?_, ?_, ?_⟩
  · rw [(hupTo _ hfirst).count]
    decide +kernel
  · rw [hbuild.count]
    decide +kernel
  · rw [(hconvert sharing .strict "shashtsas".toList rfl).1, ofGrammar, build, horder]
    decide +kernel

end Trie

end Translit
