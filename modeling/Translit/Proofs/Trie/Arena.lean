import Mathlib.Data.List.Induction
import Translit.Proofs.Trie.Children

/-!
# The arena of a trie

Each node is led to by one sequence of labels only. So a new edge changes what one sequence leads
to, and inserting a word changes what is known of that word and of no other.

* `Trie.WellFormed`: the shape of the arena; `Trie.WellFormed.extend` and
  `Trie.WellFormed.insertFrom` say that it stays so;
* `Trie.reach?_unique`: one sequence to a node;
* `Trie.reach?_extend`: what the sequences lead to when an edge is added;
* `Trie.wordAt?`, `Trie.wordAt?_insert`: the word at a sequence, before and after an insertion.
-/

namespace Translit.Trie

/-- The shape of the arena. -/
structure WellFormed (t : Trie) : Prop where
  /-- There is a root. -/
  root_lt : root < t.nodes.size
  /-- The children of a node are in order. -/
  sorted : ∀ i, (t.node i).Sorted
  /-- An edge leads to a node further on in the array. -/
  edge_lt : ∀ {i j c}, (t.node i).child? c = some j → i < j ∧ j < t.nodes.size
  /-- A node is the child of one node, under one label. -/
  edge_unique : ∀ {i j k c d}, (t.node i).child? c = some k → (t.node j).child? d = some k →
    i = j ∧ c = d

variable {t : Trie} {i j k : Nat} {c d : Char} {p q ds : List Char}

/-! ## Nodes -/

theorem node_eq_empty (h : t.nodes.size ≤ i) : t.node i = {} := by
  simp [node, Array.getElem?_eq_none h]

@[simp] theorem child?_empty (c : Char) : Node.child? {} c = none := by
  simp [Node.child?]

@[simp] theorem node_empty (i : Nat) : empty.node i = {} := by
  rcases i with _ | i <;> simp [node, empty]

theorem node_push (nodes : Array Node) (j : Nat) : node ⟨nodes.push {}⟩ j = node ⟨nodes⟩ j := by
  rcases Nat.lt_trichotomy j nodes.size with h | h | h
  · simp [node, Array.getElem?_push, Nat.ne_of_lt h]
  · simp [node, h]
  · simp [node, Array.getElem?_push, Nat.ne_of_gt h]

theorem node_modify (nodes : Array Node) (f : Node → Node) (hi : i < nodes.size) :
    node ⟨nodes.modify i f⟩ j = if j = i then f (node ⟨nodes⟩ i) else node ⟨nodes⟩ j := by
  by_cases h : j = i
  · subst h
    simp [node, Array.getElem_modify, hi]
  · simp [node, Array.getElem?_modify, h, Ne.symm h]

theorem wellFormed_empty : WellFormed empty where
  root_lt := by simp [root, empty]
  sorted i := by rw [node_empty]; exact Node.sorted_empty
  edge_lt h := by simp at h
  edge_unique h := by simp at h

/-! ## One edge more -/

theorem extend_of_child (h : (t.node i).child? c = some k) : t.extend i c = (t, k) := by
  simp [extend, h]

theorem extend_snd (h : (t.node i).child? c = none) : (t.extend i c).2 = t.nodes.size := by
  simp [extend, h]

theorem extend_size (h : (t.node i).child? c = none) :
    (t.extend i c).1.nodes.size = t.nodes.size + 1 := by
  simp [extend, h]

theorem extend_node (h : (t.node i).child? c = none) (hi : i < t.nodes.size) :
    (t.extend i c).1.node j =
      if j = i then (t.node i).addChild c t.nodes.size else t.node j := by
  simp only [extend, h]
  rw [node_modify _ _ (by simp; omega), node_push, node_push]

/-- A missing edge, once added, is the only one that is new. -/
theorem extend_child? (ht : t.WellFormed) (h : (t.node i).child? c = none)
    (hi : i < t.nodes.size) :
    ((t.extend i c).1.node j).child? d =
      if j = i ∧ d = c then some t.nodes.size else (t.node j).child? d := by
  rw [extend_node h hi]
  by_cases hj : j = i
  · subst hj
    simp [Node.child?_addChild (ht.sorted j) h]
  · simp [hj]

@[simp] theorem extend_word? (hi : i < t.nodes.size) :
    ((t.extend i c).1.node j).word? = (t.node j).word? := by
  cases h : (t.node i).child? c with
  | some k => rw [extend_of_child h]
  | none =>
    rw [extend_node h hi]
    by_cases hj : j = i <;> simp [hj]

theorem WellFormed.extend (ht : t.WellFormed) (hi : i < t.nodes.size) :
    (t.extend i c).1.WellFormed := by
  cases h : (t.node i).child? c with
  | some k => rwa [extend_of_child h]
  | none =>
    have hsize := extend_size h
    refine ⟨by rw [hsize]; exact Nat.zero_lt_succ _, fun j => ?_, ?_, ?_⟩
    · rw [extend_node h hi]
      split
      · exact (ht.sorted i).addChild h
      · exact ht.sorted j
    · intro j k d hk
      rw [extend_child? ht h hi] at hk
      rw [hsize]
      split at hk
      · rename_i hji
        simp only [Option.some.injEq] at hk
        omega
      · have := ht.edge_lt hk
        omega
    · intro j j' k d d' hk hk'
      rw [extend_child? ht h hi] at hk hk'
      split at hk <;> split at hk'
      · rename_i h1 h2
        exact ⟨h1.1.trans h2.1.symm, h1.2.trans h2.2.symm⟩
      · -- the new node was no child before
        have := ht.edge_lt hk'
        simp only [Option.some.injEq] at hk
        omega
      · have := ht.edge_lt hk
        simp only [Option.some.injEq] at hk'
        omega
      · exact ht.edge_unique hk hk'

/-! ## What a sequence leads to -/

@[simp] theorem reach?_nil (t : Trie) (i : Nat) : t.reach? i [] = some i := rfl

theorem reach?_cons (t : Trie) (i : Nat) (c : Char) (cs : List Char) :
    t.reach? i (c :: cs) = ((t.node i).child? c).bind fun j => t.reach? j cs := by
  rw [reach?]
  cases (t.node i).child? c <;> rfl

theorem reach?_append (t : Trie) (i : Nat) (p q : List Char) :
    t.reach? i (p ++ q) = (t.reach? i p).bind fun j => t.reach? j q := by
  induction p generalizing i with
  | nil => rfl
  | cons c p ih =>
    rw [List.cons_append, reach?_cons, reach?_cons, Option.bind_assoc]
    exact Option.bind_congr fun j _ => ih j

theorem reach?_concat (t : Trie) (i : Nat) (p : List Char) (c : Char) :
    t.reach? i (p ++ [c]) = (t.reach? i p).bind fun j => (t.node j).child? c := by
  simp [reach?_append, reach?_cons]

theorem WellFormed.reach?_lt (ht : t.WellFormed) (h : t.reach? root p = some k) :
    k < t.nodes.size := by
  rcases List.eq_nil_or_concat p with rfl | ⟨p, c, rfl⟩
  · simp only [reach?_nil, Option.some.injEq] at h
    exact h ▸ ht.root_lt
  · rw [List.concat_eq_append, reach?_concat, Option.bind_eq_some_iff] at h
    obtain ⟨j, -, hc⟩ := h
    exact (ht.edge_lt hc).2

theorem WellFormed.reach?_concat_ne_root (ht : t.WellFormed) :
    t.reach? root (p ++ [c]) ≠ some root := by
  rw [reach?_concat]
  intro h
  obtain ⟨j, -, hc⟩ := Option.bind_eq_some_iff.1 h
  have := (ht.edge_lt hc).1
  simp [root] at this

/-- **One sequence to a node.** -/
theorem WellFormed.reach?_unique (ht : t.WellFormed) (hp : t.reach? root p = some k)
    (hq : t.reach? root q = some k) : p = q := by
  induction p using List.reverseRecOn generalizing q k with
  | nil =>
    rcases List.eq_nil_or_concat q with rfl | ⟨q, d, rfl⟩
    · rfl
    · rw [List.concat_eq_append, ← hp] at hq
      exact absurd hq ht.reach?_concat_ne_root
  | append_singleton p c ih =>
    rcases List.eq_nil_or_concat q with rfl | ⟨q, d, rfl⟩
    · rw [← hq] at hp
      exact absurd hp ht.reach?_concat_ne_root
    · rw [List.concat_eq_append] at hq ⊢
      rw [reach?_concat, Option.bind_eq_some_iff] at hp hq
      obtain ⟨i, hi, hc⟩ := hp
      obtain ⟨j, hj, hd⟩ := hq
      obtain ⟨rfl, rfl⟩ := ht.edge_unique hc hd
      rw [ih hi hj]

/-- **A new edge changes what one sequence leads to.** -/
theorem WellFormed.reach?_extend (ht : t.WellFormed) (hp : t.reach? root p = some i) :
    (t.extend i c).1.reach? root ds =
      if ds = p ++ [c] then some (t.extend i c).2 else t.reach? root ds := by
  have hi := ht.reach?_lt hp
  cases h : (t.node i).child? c with
  | some k =>
    rw [extend_of_child h]
    split
    · rename_i hds
      rw [hds, reach?_concat, hp, Option.bind_some, h]
    · rfl
  | none =>
    rw [extend_snd h]
    have hpc : t.reach? root (p ++ [c]) = none := by rw [reach?_concat, hp, Option.bind_some, h]
    induction ds using List.reverseRecOn with
    | nil => simp
    | append_singleton ds d ih =>
      rw [reach?_concat, ih, reach?_concat]
      by_cases hds : ds = p ++ [c]
      · -- the new node has no children yet
        have hne : ¬ t.nodes.size = i := by omega
        have hlen : ¬ p ++ [c] ++ [d] = p ++ [c] := by simp
        rw [hds, if_pos rfl, if_neg hlen, Option.bind_some, extend_child? ht h hi, hpc,
          node_eq_empty le_rfl]
        simp [hne]
      · rw [if_neg hds]
        cases hj : t.reach? root ds with
        | none =>
          have : ¬ ds ++ [d] = p ++ [c] := by
            intro he
            rw [(List.append_inj' he rfl).1, hp] at hj
            exact absurd hj (by simp)
          simp [this]
        | some j =>
          have hiff : j = i ↔ ds = p := by
            constructor
            · rintro rfl
              exact ht.reach?_unique hj hp
            · rintro rfl
              simpa [hp, eq_comm] using hj
          rw [Option.bind_some, Option.bind_some, extend_child? ht h hi]
          by_cases hd : j = i ∧ d = c
          · simp [hiff.1 hd.1, hd]
          · have : ¬ ds ++ [d] = p ++ [c] := by
              intro he
              obtain ⟨h1, h2⟩ := List.append_inj' he rfl
              exact hd ⟨hiff.2 h1, by simpa using h2⟩
            rw [if_neg hd, if_neg this]

theorem WellFormed.reach?_extend_self (ht : t.WellFormed) (hp : t.reach? root p = some i) :
    (t.extend i c).1.reach? root (p ++ [c]) = some (t.extend i c).2 := by
  simp [ht.reach?_extend hp]

/-! ## The word at a sequence -/

/-- The word at the node that a sequence of characters leads to from node `i`. -/
def wordAt? (t : Trie) (i : Nat) (cs : List Char) : Option Nat :=
  (t.reach? i cs).bind fun j => (t.node j).word?

@[simp] theorem wordAt?_nil (t : Trie) (i : Nat) : t.wordAt? i [] = (t.node i).word? := rfl

theorem wordAt?_cons (t : Trie) (i : Nat) (c : Char) (cs : List Char) :
    t.wordAt? i (c :: cs) = ((t.node i).child? c).bind fun j => t.wordAt? j cs := by
  simp [wordAt?, reach?_cons, Option.bind_assoc]

theorem wordAt?_empty (ds : List Char) : empty.wordAt? root ds = none := by
  cases ds <;> simp [wordAt?_cons]

theorem WellFormed.wordAt?_extend (ht : t.WellFormed) (hp : t.reach? root p = some i) :
    (t.extend i c).1.wordAt? root ds = t.wordAt? root ds := by
  have hi := ht.reach?_lt hp
  simp only [wordAt?, extend_word? hi, ht.reach?_extend hp]
  split
  · rename_i hds
    rw [hds, reach?_concat, hp, Option.bind_some, Option.bind_some]
    cases h : (t.node i).child? c with
    | some k => rw [extend_of_child h, Option.bind_some]
    | none => rw [extend_snd h, node_eq_empty le_rfl, Option.bind_none]
  · rfl

theorem insertFrom_nil_node (word : Nat) (hi : i < t.nodes.size) :
    (t.insertFrom i word []).node j =
      if j = i then { t.node i with word? := some word } else t.node j := by
  rw [insertFrom, node_modify _ _ hi]

theorem insertFrom_nil_child? (word : Nat) (hi : i < t.nodes.size) :
    ((t.insertFrom i word []).node j).child? d = (t.node j).child? d := by
  rw [insertFrom_nil_node word hi]
  split
  · rename_i h; rw [h]; rfl
  · rfl

theorem insertFrom_nil_reach? (word : Nat) (hi : i < t.nodes.size) (j : Nat) (ds : List Char) :
    (t.insertFrom i word []).reach? j ds = t.reach? j ds := by
  induction ds generalizing j with
  | nil => rfl
  | cons d ds ih => simp only [reach?_cons, insertFrom_nil_child? word hi, ih]

theorem WellFormed.insertFrom (ht : t.WellFormed) (word : Nat) (cs : List Char)
    (hp : t.reach? root p = some i) : (t.insertFrom i word cs).WellFormed := by
  induction cs generalizing t i p with
  | nil =>
    have hi := ht.reach?_lt hp
    have hsize : (t.insertFrom i word []).nodes.size = t.nodes.size := by simp [Trie.insertFrom]
    refine ⟨by rw [hsize]; exact ht.root_lt, fun j => ?_, fun h => ?_, fun h h' => ?_⟩
    · rw [insertFrom_nil_node word hi]
      split
      · exact ht.sorted i
      · exact ht.sorted j
    · rw [insertFrom_nil_child? word hi] at h
      rw [hsize]
      exact ht.edge_lt h
    · rw [insertFrom_nil_child? word hi] at h h'
      exact ht.edge_unique h h'
  | cons c cs ih => exact ih (ht.extend (ht.reach?_lt hp)) (ht.reach?_extend_self hp)

/-- **A word is inserted at its own sequence and nowhere else.** -/
theorem WellFormed.wordAt?_insertFrom (ht : t.WellFormed) (word : Nat) (cs : List Char)
    (hp : t.reach? root p = some i) :
    (t.insertFrom i word cs).wordAt? root ds =
      if ds = p ++ cs then some word else t.wordAt? root ds := by
  induction cs generalizing t i p with
  | nil =>
    have hi := ht.reach?_lt hp
    rw [List.append_nil, wordAt?, wordAt?, insertFrom_nil_reach? word hi]
    by_cases hds : ds = p
    · rw [hds, hp, Option.bind_some, insertFrom_nil_node word hi, if_pos rfl, if_pos rfl]
    · rw [if_neg hds]
      refine Option.bind_congr fun j hj => ?_
      have : ¬ j = i := by
        rintro rfl
        exact hds (ht.reach?_unique hj hp)
      rw [insertFrom_nil_node word hi, if_neg this]
  | cons c cs ih =>
    rw [Trie.insertFrom, ih (ht.extend (ht.reach?_lt hp)) (ht.reach?_extend_self hp),
      ht.wordAt?_extend hp, List.append_assoc, List.singleton_append]

theorem WellFormed.insert (ht : t.WellFormed) (entry : List Char × Nat) :
    (t.insert entry).WellFormed :=
  ht.insertFrom entry.2 entry.1 (p := []) rfl

theorem WellFormed.wordAt?_insert (ht : t.WellFormed) (entry : List Char × Nat) :
    (t.insert entry).wordAt? root ds = if ds = entry.1 then some entry.2 else t.wordAt? root ds :=
  ht.wordAt?_insertFrom entry.2 entry.1 (p := []) rfl

end Translit.Trie
