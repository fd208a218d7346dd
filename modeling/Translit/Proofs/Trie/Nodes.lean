import Mathlib.Algebra.Ring.Nat
import Mathlib.Data.Finset.Card
import Mathlib.Data.List.Infix
import Mathlib.Data.Set.Function
import Translit.Proofs.Trie.Paths

/-!
# The nodes of a trie

The array of a trie holds one node for each beginning of its words, with the empty one at the root,
and no other nodes. Every insertion leaves it so.

* `nonemptyPrefixes`: the beginnings of words;
* `Trie.Path`: the labels on the way to a node;
* `Trie.Spanned`: a way leads to each node; `Trie.Spanned.extend`, `Trie.Spanned.insertFrom` and
  `Trie.spanned_ofEntries` say that it stays so;
* `Trie.word?_ofEntries`: the words at the nodes;
* `Trie.nodeCount_ofEntries`: how many nodes there are;
* `Trie.Arena`, `Trie.arena_ofEntries`, `Trie.arena_build`: the array as a whole;
* `Trie.size_ofEntries_le`: how many nodes there are at most.
-/

namespace Translit

variable {words words' : List (List Char)} {p w : List Char}

/-- The beginnings of the words that are not empty, each of them once. -/
def nonemptyPrefixes (words : List (List Char)) : Finset (List Char) :=
  (words.flatMap List.inits).toFinset.erase []

theorem mem_nonemptyPrefixes : p ∈ nonemptyPrefixes words ↔ p ≠ [] ∧ ∃ w ∈ words, p <+: w := by
  unfold nonemptyPrefixes
  rw [Finset.mem_erase, List.mem_toFinset, List.mem_flatMap]
  simp only [List.mem_inits]

theorem nonemptyPrefixes_congr (h : ∀ w, w ∈ words ↔ w ∈ words') :
    nonemptyPrefixes words = nonemptyPrefixes words' := by
  ext p
  simp only [mem_nonemptyPrefixes, h]

namespace Trie

variable {t : Trie} {i k : Nat} {c : Char} {entries : List (List Char × Nat)} {bound : Nat}

/-! ## The way to a node -/

/-- The labels on the way from the root to a node. -/
inductive Path (t : Trie) : List Char → Nat → Prop
  | root : Path t [] root
  | child {p : List Char} {i : Nat} {c : Char} {k : Nat} (path : Path t p i)
      (edge : (c, k) ∈ (t.node i).children) : Path t (p ++ [c]) k

theorem WellFormed.mem_children_iff (ht : t.WellFormed) :
    (c, k) ∈ (t.node i).children ↔ (t.node i).child? c = some k := by
  rw [Node.child?_eq_some_iff (ht.sorted i), Array.mem_toList_iff]

/-- The search goes the way that the labels say. -/
theorem WellFormed.path_iff (ht : t.WellFormed) : t.Path p k ↔ t.reach? Trie.root p = some k := by
  constructor
  · intro h
    induction h with
    | root => rfl
    | child _ edge ih => rw [reach?_concat, ih, Option.bind_some, ← ht.mem_children_iff.1 edge]
  · intro h
    induction p using List.reverseRecOn generalizing k with
    | nil =>
      cases h
      exact .root
    | append_singleton p c ih =>
      rw [reach?_concat] at h
      obtain ⟨i, hi, hc⟩ := Option.bind_eq_some_iff.1 h
      exact .child (ih hi) (ht.mem_children_iff.2 hc)

/-! ## Every node is on a way -/

/-- A sequence of labels leads to each node. -/
def Spanned (t : Trie) : Prop := ∀ k < t.nodes.size, ∃ p, t.reach? root p = some k

theorem spanned_empty : Spanned empty := by
  intro k hk
  have hroot : k = root := by
    simp only [empty, List.size_toArray, List.length_singleton] at hk
    unfold root
    omega
  exact ⟨[], by rw [hroot]; rfl⟩

/-- **One edge more.** The new node is on a way, and the others stay on theirs. -/
theorem Spanned.extend (hs : t.Spanned) (ht : t.WellFormed) (hp : t.reach? root p = some i) :
    (t.extend i c).1.Spanned := by
  cases h : (t.node i).child? c with
  | some k => rwa [extend_of_child h]
  | none =>
    intro k hk
    rw [extend_size h] at hk
    by_cases hnew : k = t.nodes.size
    · refine ⟨p ++ [c], ?_⟩
      rw [ht.reach?_extend_self hp, extend_snd h, hnew]
    · obtain ⟨q, hq⟩ := hs k (by omega)
      refine ⟨q, ?_⟩
      have hne : q ≠ p ++ [c] := by
        rintro rfl
        rw [reach?_concat, hp, Option.bind_some, h] at hq
        cases hq
      rw [ht.reach?_extend hp, if_neg hne, hq]

theorem Spanned.insertFrom (hs : t.Spanned) (ht : t.WellFormed) (word : Nat) (cs : List Char)
    (hp : t.reach? root p = some i) : (t.insertFrom i word cs).Spanned := by
  induction cs generalizing t i p with
  | nil =>
    intro k hk
    have hsize : (t.insertFrom i word []).nodes.size = t.nodes.size := by simp [Trie.insertFrom]
    obtain ⟨q, hq⟩ := hs k (hsize ▸ hk)
    exact ⟨q, by rw [insertFrom_nil_reach? word (ht.reach?_lt hp), hq]⟩
  | cons c cs ih =>
    exact ih (hs.extend ht hp) (ht.extend (ht.reach?_lt hp)) (ht.reach?_extend_self hp)

theorem spanned_ofEntries (entries : List (List Char × Nat)) : (ofEntries entries).Spanned := by
  induction entries using List.reverseRecOn with
  | nil => exact spanned_empty
  | append_singleton entries e ih =>
    rw [ofEntries_concat]
    exact ih.insertFrom (wellFormed_ofEntries entries) e.2 e.1 (p := []) rfl

/-- The word at a node is one of those that were inserted. -/
theorem word?_ofEntries {word : Nat} (h : ((ofEntries entries).node k).word? = some word) :
    ∃ e ∈ entries, e.2 = word := by
  by_cases hk : k < (ofEntries entries).nodes.size
  · obtain ⟨p, hp⟩ := spanned_ofEntries entries k hk
    have hword := wordAt?_ofEntries entries p
    rw [wordAt?, hp, Option.bind_some, h] at hword
    obtain ⟨e, he, rfl⟩ := Option.map_eq_some_iff.1 hword.symm
    exact ⟨e, (List.mem_filter.1 (List.mem_of_getLast? he)).1, rfl⟩
  · rw [node_eq_empty (Nat.le_of_not_lt hk)] at h
    cases h

/-! ## The array -/

/-- **The array of a trie** with the words `words`, whose places are below `bound`. -/
structure Arena (t : Trie) (words : List (List Char)) (bound : Nat) : Prop where
  /-- The labels of the children of a node ascend. -/
  sorted : ∀ i < t.nodes.size, (t.node i).Sorted
  /-- A child lies behind its node, and in the array. -/
  forward : ∀ i < t.nodes.size, ∀ e ∈ (t.node i).children, i < e.2 ∧ e.2 < t.nodes.size
  /-- A node other than the root is the child of one node, under one label. -/
  parent : ∀ k < t.nodes.size, k ≠ root →
    ∃! e : Nat × Char, e.1 < t.nodes.size ∧ (e.2, k) ∈ (t.node e.1).children
  /-- One way leads to each node, and the ways are the beginnings of the words. -/
  paths : ∃ path : Nat → List Char,
    (∀ k < t.nodes.size, ∀ p, t.Path p k ↔ p = path k) ∧
    Set.BijOn path {k | k < t.nodes.size} {p | p = [] ∨ ∃ w ∈ words, p <+: w}
  /-- There are as many nodes as beginnings of words. -/
  count : t.nodeCount = 1 + (nonemptyPrefixes words).card
  /-- The word at a node is in its place. -/
  word_lt : ∀ i < t.nodes.size, ∀ word, (t.node i).word? = some word → word < bound

namespace Arena

/-- Only which words there are matters, not their order. -/
theorem congr (h : t.Arena words bound) (hwords : ∀ w, w ∈ words ↔ w ∈ words') :
    t.Arena words' bound := by
  obtain ⟨hsorted, hforward, hparent, hpaths, hcount, hword⟩ := h
  simp only [hwords] at hpaths
  rw [nonemptyPrefixes_congr hwords] at hcount
  exact ⟨hsorted, hforward, hparent, hpaths, hcount, hword⟩

end Arena

/-- **One parent.** The way to a node other than the root ends with an edge, the only one there. -/
theorem WellFormed.existsUnique_parent (ht : t.WellFormed) (hs : t.Spanned)
    (hk : k < t.nodes.size) (hroot : k ≠ root) :
    ∃! e : Nat × Char, e.1 < t.nodes.size ∧ (e.2, k) ∈ (t.node e.1).children := by
  obtain ⟨p, hp⟩ := hs k hk
  obtain rfl | ⟨p, c, rfl⟩ := List.eq_nil_or_concat p
  · exact absurd (Option.some.inj hp).symm hroot
  · rw [List.concat_eq_append, reach?_concat] at hp
    obtain ⟨i, hi, hc⟩ := Option.bind_eq_some_iff.1 hp
    refine ⟨(i, c), ⟨ht.reach?_lt hi, ht.mem_children_iff.2 hc⟩, ?_⟩
    rintro ⟨j, d⟩ ⟨-, hd⟩
    obtain ⟨rfl, rfl⟩ := ht.edge_unique (ht.mem_children_iff.1 hd) hc
    rfl

/-- **One way to each node**, and one node for each beginning of a word. -/
theorem exists_path (entries : List (List Char × Nat)) : ∃ path : Nat → List Char,
    (∀ k < (ofEntries entries).nodes.size, ∀ p, (ofEntries entries).Path p k ↔ p = path k) ∧
    Set.BijOn path {k | k < (ofEntries entries).nodes.size}
      {p | p = [] ∨ ∃ w ∈ entries.map (·.1), p <+: w} := by
  have ht := wellFormed_ofEntries entries
  have hmem : ∀ p, (p = [] ∨ ∃ w ∈ entries.map (·.1), p <+: w) ↔
      ((ofEntries entries).reach? root p).isSome := by
    intro p
    rw [isSome_reach?_ofEntries]
    simp
  choose! path hpath using spanned_ofEntries entries
  refine ⟨path, ?_, ?_, ?_, ?_⟩
  · intro k hk p
    rw [ht.path_iff]
    constructor
    · intro hp
      exact ht.reach?_unique hp (hpath k hk)
    · rintro rfl
      exact hpath k hk
  · intro k hk
    apply (hmem _).2
    rw [hpath k hk]
    rfl
  · intro k hk k' hk' heq
    have hreach := hpath k hk
    rw [heq, hpath k' hk'] at hreach
    exact (Option.some.inj hreach).symm
  · intro p hp
    obtain ⟨k, hk⟩ := Option.isSome_iff_exists.1 ((hmem p).1 hp)
    have hlt := ht.reach?_lt hk
    exact ⟨k, hlt, ht.reach?_unique (hpath k hlt) hk⟩

/-- The nodes are counted by the ways to them. -/
theorem nodeCount_of_bijOn {path : Nat → List Char}
    (h : Set.BijOn path {k | k < t.nodes.size} {p | p = [] ∨ ∃ w ∈ words, p <+: w}) :
    t.nodeCount = 1 + (nonemptyPrefixes words).card := by
  have hnil : [] ∉ nonemptyPrefixes words := fun hmem => (mem_nonemptyPrefixes.1 hmem).1 rfl
  have hset : {p | p = [] ∨ ∃ w ∈ words, p <+: w} =
      (↑((nonemptyPrefixes words).cons [] hnil) : Set (List Char)) := by
    ext p
    rw [Finset.mem_coe, Finset.mem_cons, mem_nonemptyPrefixes]
    by_cases hp : p = [] <;> simp [hp]
  have hrange : {k | k < t.nodes.size} = (↑(Finset.range t.nodes.size) : Set Nat) := by
    rw [Finset.coe_range]
    rfl
  rw [hset, hrange] at h
  have hcard := Finset.card_nbij path h.mapsTo h.injOn h.surjOn
  rw [Finset.card_range, Finset.card_cons] at hcard
  unfold nodeCount
  omega

/-- There are as many nodes as beginnings of the words that were inserted. -/
theorem nodeCount_ofEntries (entries : List (List Char × Nat)) :
    (ofEntries entries).nodeCount = 1 + (nonemptyPrefixes (entries.map (·.1))).card := by
  obtain ⟨path, -, hbij⟩ := exists_path entries
  exact nodeCount_of_bijOn hbij

/-- **After every insertion** the array has this shape. -/
theorem arena_ofEntries (h : ∀ e ∈ entries, e.2 < bound) :
    (ofEntries entries).Arena (entries.map (·.1)) bound := by
  have ht := wellFormed_ofEntries entries
  refine ⟨fun i _ => ht.sorted i, ?_, ?_, exists_path entries, nodeCount_ofEntries entries, ?_⟩
  · rintro i - ⟨c, k⟩ hk
    exact ht.edge_lt (ht.mem_children_iff.1 hk)
  · intro k hk hroot
    exact ht.existsUnique_parent (spanned_ofEntries entries) hk hroot
  · intro i _ word hword
    obtain ⟨e, he, rfl⟩ := word?_ofEntries hword
    exact h e he

/-- Each beginning of the insertions makes such an array. -/
theorem arena_upTo (h : entries <+: insertionOrder words) :
    (ofEntries entries).Arena (entries.map (·.1)) words.length := by
  apply arena_ofEntries
  intro e he
  exact (List.getElem?_eq_some_iff.1 (mem_insertionOrder.1 (h.subset he))).1

theorem arena_build (words : List (List Char)) : (build words).Arena words words.length :=
  (arena_upTo (List.prefix_refl _)).congr fun _ => (perm_insertionOrder words).mem_iff

/-! ## The number of nodes -/

theorem size_extend_le (t : Trie) (i : Nat) (c : Char) :
    (t.extend i c).1.nodes.size ≤ t.nodes.size + 1 := by
  cases h : (t.node i).child? c with
  | some k =>
    rw [extend_of_child h]
    exact Nat.le_succ _
  | none => exact Nat.le_of_eq (extend_size h)

theorem size_insertFrom_le (t : Trie) (i word : Nat) (cs : List Char) :
    (t.insertFrom i word cs).nodes.size ≤ t.nodes.size + cs.length := by
  induction cs generalizing t i with
  | nil => simp [Trie.insertFrom]
  | cons c cs ih =>
    have hrest := ih (t.extend i c).1 (t.extend i c).2
    have hfirst := size_extend_le t i c
    show ((t.extend i c).1.insertFrom (t.extend i c).2 word cs).nodes.size ≤ _
    rw [List.length_cons]
    omega

/-- There is a root, and no more than one node for each character of a word. -/
theorem size_ofEntries_le (entries : List (List Char × Nat)) :
    (ofEntries entries).nodes.size ≤ 1 + (entries.map (·.1.length)).sum := by
  induction entries using List.reverseRecOn with
  | nil => exact Nat.le_refl 1
  | append_singleton entries e ih =>
    have hinsert := size_insertFrom_le (ofEntries entries) root e.2 e.1
    rw [ofEntries_concat, List.map_append, List.sum_append, List.map_singleton, List.sum_singleton]
    exact hinsert.trans (by omega)

end Trie

end Translit
