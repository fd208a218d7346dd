import Translit.Proofs.Trie.Nodes
import Translit.Proofs.Trie.Search

/-!
# The order of insertion

The nodes of a trie are numbered as its words go in, but no search shows the numbers. What can be
seen of a trie is decided by the words it knows at the sequences that are not empty. So the words of
a list may go in in any order, as long as of equal words the last in the list goes in last.

* `Trie.Alike`: two tries of which the same can be seen;
* `Trie.alike_ofEntries_iff`: they know the same words;
* `Trie.inOrder`, `Trie.ofPlaces`: the words of a list inserted in an order of their places;
* `Trie.ofPlaces_alike_iff`: the orders that give what the longest words first give;
* `Trie.Arrangement`: an order of all places in which equal words keep theirs;
* `Trie.order_unseen`: such an order gives the same, among others that of the list.
-/

namespace Translit.Trie

variable {t u : Trie} {entries entries' : List (List Char × Nat)} {words : List (List Char)}
  {places : List Nat} {w p s cs : List Char} {i j : Nat}

/-- What can be seen of the tries is the same: how many nodes there are, what is known of each
sequence, and the longest word at each place of a text. -/
structure Alike (t u : Trie) : Prop where
  nodeCount : t.nodeCount = u.nodeCount
  lookup : ∀ s, t.lookup s = u.lookup s
  longestMatch : ∀ cs start, t.longestMatch cs start = u.longestMatch cs start

/-! ## Tries that know the same words -/

theorem longest_eq_of_wordAt? (h : ∀ w, w ≠ [] → t.wordAt? root w = u.wordAt? root w)
    (cs : List Char) : t.longest cs = u.longest cs := by
  have htake : ∀ l, 0 < l → l ≤ cs.length →
      t.wordAt? root (cs.take l) = u.wordAt? root (cs.take l) := by
    intro l hpos hle
    apply h
    intro hnil
    have hlen := List.length_take_of_le hle
    rw [hnil, List.length_nil] at hlen
    omega
  ext m
  rw [longest_eq_some_iff, longest_eq_some_iff]
  constructor
  · rintro ⟨hpos, hle, hword, hmax⟩
    refine ⟨hpos, hle, htake _ hpos hle ▸ hword, fun l hl hle' => ?_⟩
    rw [← htake l (by omega) hle', hmax l hl hle']
  · rintro ⟨hpos, hle, hword, hmax⟩
    refine ⟨hpos, hle, (htake _ hpos hle).trans hword, fun l hl hle' => ?_⟩
    rw [htake l (by omega) hle', hmax l hl hle']

theorem WellFormed.lookup_eq (ht : t.WellFormed) (hu : u.WellFormed)
    (hword : ∀ w, w ≠ [] → t.wordAt? root w = u.wordAt? root w)
    (hreach : ∀ p, (t.reach? root p).isSome ↔ (u.reach? root p).isSome) (s : List Char) :
    t.lookup s = u.lookup s := by
  by_cases hs : s = []
  · rw [hs, lookup_nil, lookup_nil]
  · apply lookup_eq_iff.2
    constructor
    · rw [ht.word?_lookup hs, hu.word?_lookup hs, hword s hs]
    · rw [Bool.eq_iff_iff, ht.continues_lookup hs, hu.continues_lookup hs]
      exact exists_congr fun c => hreach (s ++ [c])

theorem isSome_wordAt?_ofEntries :
    ((ofEntries entries).wordAt? root w).isSome ↔ ∃ e ∈ entries, e.1 = w := by
  rw [wordAt?_ofEntries, Option.isSome_map, Option.isSome_iff_ne_none, ne_eq,
    List.getLast?_eq_none_iff, entriesOf, List.filter_eq_nil_iff]
  simp

/-- A sequence leads to a node exactly if it is empty or begins a word that the trie knows. -/
theorem isSome_reach?_iff_wordAt? : ((ofEntries entries).reach? root p).isSome ↔
    p = [] ∨ ∃ w, w ≠ [] ∧ p <+: w ∧ ((ofEntries entries).wordAt? root w).isSome := by
  rw [isSome_reach?_ofEntries]
  by_cases hp : p = []
  · simp [hp]
  · simp only [isSome_wordAt?_ofEntries, hp, false_or]
    constructor
    · rintro ⟨e, he, hpre⟩
      refine ⟨e.1, ?_, hpre, e, he, rfl⟩
      intro hnil
      exact hp (List.prefix_nil.1 (hnil ▸ hpre))
    · rintro ⟨_, -, hpre, e, he, rfl⟩
      exact ⟨e, he, hpre⟩

theorem mem_nonemptyPrefixes_iff_reach? : p ∈ nonemptyPrefixes (entries.map (·.1)) ↔
    p ≠ [] ∧ ((ofEntries entries).reach? root p).isSome := by
  rw [mem_nonemptyPrefixes, isSome_reach?_ofEntries]
  refine and_congr_right fun hp => ?_
  simp [hp]

/-- **Tries are alike** exactly if they know the same words at the sequences that are not empty. -/
theorem alike_ofEntries_iff : (ofEntries entries).Alike (ofEntries entries') ↔
    ∀ w, w ≠ [] → (ofEntries entries).wordAt? root w = (ofEntries entries').wordAt? root w := by
  have ht := wellFormed_ofEntries entries
  have hu := wellFormed_ofEntries entries'
  constructor
  · intro h w hw
    rw [← ht.word?_lookup hw, ← hu.word?_lookup hw, h.lookup]
  · intro h
    have hreach : ∀ p, ((ofEntries entries).reach? root p).isSome ↔
        ((ofEntries entries').reach? root p).isSome := by
      intro p
      rw [isSome_reach?_iff_wordAt?, isSome_reach?_iff_wordAt?]
      refine or_congr_right (exists_congr fun w => and_congr_right fun hw => ?_)
      rw [h w hw]
    have hprefixes : nonemptyPrefixes (entries.map (·.1)) =
        nonemptyPrefixes (entries'.map (·.1)) := by
      ext p
      rw [mem_nonemptyPrefixes_iff_reach?, mem_nonemptyPrefixes_iff_reach?, hreach]
    refine ⟨?_, ht.lookup_eq hu h hreach, ?_⟩
    · rw [nodeCount_ofEntries, nodeCount_ofEntries, hprefixes]
    · intro cs start
      exact longest_eq_of_wordAt? h _

/-! ## Orders of the places -/

/-- The words at the places of a list, in the order in which the places are given. -/
def inOrder (words : List (List Char)) (places : List Nat) : List (List Char × Nat) :=
  places.filterMap fun i => words[i]?.map (·, i)

/-- The trie of a list of words that go in in the order in which their places are given. -/
def ofPlaces (words : List (List Char)) (places : List Nat) : Trie :=
  ofEntries (inOrder words places)

/-- The places of a word among those that are given. -/
def placesOf (words : List (List Char)) (places : List Nat) (w : List Char) : List Nat :=
  places.filter fun i => words[i]? = some w

theorem entriesOf_inOrder :
    entriesOf (inOrder words places) w = (placesOf words places w).map (w, ·) := by
  induction places with
  | nil => rfl
  | cons i places ih =>
    unfold inOrder entriesOf placesOf at ih ⊢
    rw [List.filterMap_cons, List.filter_cons]
    cases hv : words[i]? with
    | none => simpa using ih
    | some v =>
      by_cases hvw : v = w
      · simp [hvw, ih]
      · simp [hvw, ih]

/-- Of the places of a word the last that is given counts. -/
theorem wordAt?_ofPlaces :
    (ofPlaces words places).wordAt? root w = (placesOf words places w).getLast? := by
  rw [ofPlaces, wordAt?_ofEntries, entriesOf_inOrder, List.getLast?_map, Option.map_map]
  exact congrFun Option.map_id _

/-- **The orders that make no difference**: the last place of each word in the list is the last of
its places to be given. -/
theorem ofPlaces_alike_iff : (ofPlaces words places).Alike (build words) ↔
    ∀ w, w ≠ [] → ∀ i, (placesOf words places w).getLast? = some i ↔ LastAt words i w := by
  have hsame : (ofPlaces words places).Alike (build words) ↔ ∀ w, w ≠ [] →
      (ofPlaces words places).wordAt? root w = (build words).wordAt? root w :=
    alike_ofEntries_iff
  rw [hsame]
  refine forall₂_congr fun w _ => ?_
  rw [wordAt?_ofPlaces, Option.ext_iff]
  refine forall_congr' fun i => ?_
  rw [wordAt?_build]

/-- Every place is given once, and of two places of one word the earlier first. -/
structure Arrangement (words : List (List Char)) (places : List Nat) : Prop where
  perm : places.Perm (List.range words.length)
  stable : places.Pairwise fun i j => words[i]? = words[j]? → i < j

instance : Decidable (Arrangement words places) :=
  decidable_of_iff (_ ∧ _) ⟨fun ⟨h₁, h₂⟩ => ⟨h₁, h₂⟩, fun ⟨h₁, h₂⟩ => ⟨h₁, h₂⟩⟩

namespace Arrangement

theorem range (words : List (List Char)) : Arrangement words (List.range words.length) := by
  refine ⟨List.Perm.refl _, List.pairwise_lt_range.imp ?_⟩
  intro i j hlt _
  exact hlt

theorem mem_placesOf (h : Arrangement words places) :
    i ∈ placesOf words places w ↔ words[i]? = some w := by
  rw [placesOf, List.mem_filter, decide_eq_true_eq, h.perm.mem_iff, List.mem_range,
    and_iff_right_iff_imp]
  intro hi
  exact (List.getElem?_eq_some_iff.1 hi).1

theorem pairwise_placesOf (h : Arrangement words places) :
    (placesOf words places w).Pairwise (· < ·) := by
  refine (h.stable.filter _).imp_of_mem fun hi hj hlt => hlt ?_
  exact (h.mem_placesOf.1 hi).trans (h.mem_placesOf.1 hj).symm

/-- The last place of a word that is given is its last place in the list. -/
theorem lastAt_of_getLast? (h : Arrangement words places)
    (hi : (placesOf words places w).getLast? = some i) : LastAt words i w := by
  have hasc := h.pairwise_placesOf (w := w)
  refine ⟨h.mem_placesOf.1 (List.mem_of_getLast? hi), fun j hj => ?_⟩
  have hmem := h.mem_placesOf.2 hj
  obtain ⟨front, hfront⟩ := List.getLast?_eq_some_iff.1 hi
  rw [hfront, List.pairwise_append] at hasc
  rw [hfront, List.mem_append, List.mem_singleton] at hmem
  rcases hmem with hmem | rfl
  · exact Nat.le_of_lt (hasc.2.2 j hmem i (List.mem_singleton_self i))
  · exact Nat.le_refl j

theorem getLast?_placesOf (h : Arrangement words places) :
    (placesOf words places w).getLast? = some i ↔ LastAt words i w := by
  refine ⟨h.lastAt_of_getLast?, fun hi => ?_⟩
  cases hlast : (placesOf words places w).getLast? with
  | none =>
    have hmem := h.mem_placesOf.2 hi.here
    rw [List.getLast?_eq_none_iff.1 hlast] at hmem
    cases hmem
  | some k => rw [(h.lastAt_of_getLast? hlast).unique hi]

end Arrangement

/-- **The order of insertion is not seen.** The words of a list may go in in any order in which
equal words keep theirs: there are as many nodes as when the longest words go in first, the same is
known of every sequence, and the same word is found at every place of every text. So the words may
also go in in the order of the list. -/
theorem order_unseen (words : List (List Char)) :
    (∀ places, Arrangement words places → (ofPlaces words places).Alike (build words)) ∧
    (ofPlaces words (List.range words.length)).Alike (build words) := by
  have hany : ∀ places, Arrangement words places → (ofPlaces words places).Alike (build words) := by
    intro places h
    apply ofPlaces_alike_iff.2
    intro w _ i
    exact h.getLast?_placesOf
  exact ⟨hany, hany _ (.range words)⟩

/-- Words of three lengths, the empty one among them and two of them twice. -/
def repeated : List (List Char) :=
  ["a".toList, "ab".toList, [], "a".toList, "b".toList, "ab".toList]

/-- The first node behind the root is another one when the words go in in this order, but the
searches come to the same words. -/
theorem shuffled_order_unseen :
    Arrangement repeated [4, 0, 2, 1, 5, 3] ∧
    ((ofPlaces repeated [4, 0, 2, 1, 5, 3]).node 1).word? = some 4 ∧
    ((ofPlaces repeated (List.range 6)).node 1).word? = some 3 ∧
    (build repeated).nodeCount = 4 ∧
    (build repeated).lookup "a".toList = ⟨some 3, true⟩ ∧
    (build repeated).longestMatch "cabb".toList 1 = some ⟨5, 2⟩ ∧
    (ofPlaces repeated (List.range 6)).longestMatch "cabb".toList 3 = some ⟨4, 1⟩ := by
  have harr : Arrangement repeated [4, 0, 2, 1, 5, 3] := by decide
  obtain ⟨hany, hlisted⟩ := order_unseen repeated
  have hshuffled := hany _ harr
  refine ⟨harr, by decide +kernel, by decide +kernel, ?_, ?_, ?_, ?_⟩
  · rw [← hshuffled.nodeCount]
    decide +kernel
  · rw [← hshuffled.lookup]
    decide +kernel
  · rw [← hshuffled.longestMatch]
    decide +kernel
  · rw [show List.range 6 = List.range repeated.length from rfl, hlisted.longestMatch,
      ← hshuffled.longestMatch]
    decide +kernel

/-- Where equal words change places, the search comes to another one of them. -/
example : (ofPlaces ["a".toList, "a".toList] [1, 0]).lookup "a".toList = ⟨some 0, false⟩ ∧
    (ofPlaces ["a".toList, "a".toList] [0, 1]).lookup "a".toList = ⟨some 1, false⟩ := by
  decide +kernel

end Translit.Trie
