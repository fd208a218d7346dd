import Mathlib.Data.Char
import Mathlib.Tactic.Common
import Translit.Trie

/-!
# Finding a child by halving

The children of a node lie in the order of their labels, strictly. Then the halving search finds
the child of a label, and a child that is added comes to lie in its place.

* `Trie.Node.Sorted`: the order of the children;
* `Trie.Node.position_spec`: the labels below `c` end where the search for `c` ends;
* `Trie.Node.child?_eq_some_iff`: the search finds what is among the children, and nothing else;
* `Trie.Node.child?_addChild`, `Trie.Node.Sorted.addChild`: one more child.
-/

namespace Translit.Trie.Node

/-- The labels of the children ascend. -/
def Sorted (n : Node) : Prop := n.children.toList.Pairwise fun a b => a.1 < b.1

theorem sorted_empty : Sorted {} := by simp [Sorted]

/-! ## The halving search -/

/-- `r` separates the labels below `c` from the others. -/
structure Separates (children : Array (Char × Nat)) (c : Char) (r : Nat) : Prop where
  le_size : r ≤ children.size
  below : ∀ j (h : j < children.size), j < r → children[j].1 < c
  above : ∀ j (h : j < children.size), r ≤ j → c ≤ children[j].1

variable {children : Array (Char × Nat)} {c d : Char}

theorem label_le_of_le (hs : children.toList.Pairwise fun a b => a.1 < b.1) {i j : Nat}
    (hij : i ≤ j) (hj : j < children.size) : children[i].1 ≤ children[j].1 := by
  rcases Nat.lt_or_eq_of_le hij with h | rfl
  · have := List.pairwise_iff_getElem.1 hs i j (by simp; omega) (by simpa using hj) h
    exact le_of_lt (by simpa using this)
  · exact le_rfl

/-- **The loop.** The labels before `lo` are below `c`, those from `hi` on are not, and there are
steps enough to bring the two together. -/
theorem lowerBound_separates (hs : children.toList.Pairwise fun a b => a.1 < b.1) :
    ∀ steps lo hi : Nat, lo ≤ hi → hi ≤ children.size → hi - lo ≤ steps →
      (∀ j (h : j < children.size), j < lo → children[j].1 < c) →
      (∀ j (h : j < children.size), hi ≤ j → c ≤ children[j].1) →
      Separates children c (lowerBound children c steps lo hi) := by
  intro steps
  induction steps with
  | zero =>
    intro lo hi hle hsize hsteps hbelow habove
    have : hi = lo := by omega
    subst this
    exact ⟨hsize, hbelow, habove⟩
  | succ steps ih =>
    intro lo hi hle hsize hsteps hbelow habove
    rw [lowerBound]
    by_cases hlt : lo < hi
    · have hmid : lo + (hi - lo) / 2 < children.size := by omega
      simp only [hlt, if_true, Array.getElem?_eq_getElem hmid, Option.any_some, decide_eq_true_eq]
      split
      · rename_i hc
        -- the middle label is below `c`, and so are all before it
        refine ih _ _ (by omega) hsize (by omega) (fun j h hj => ?_) habove
        exact lt_of_le_of_lt (label_le_of_le hs (by omega) hmid) hc
      · rename_i hc
        refine ih _ _ (by omega) (by omega) (by omega) hbelow (fun j h hj => ?_)
        exact le_trans (not_lt.1 hc) (label_le_of_le hs hj h)
    · have : hi = lo := by omega
      subst this
      simp only [lt_irrefl, if_false]
      exact ⟨hsize, hbelow, habove⟩

variable {n : Node} {k m : Nat}

/-- The labels below `c` end at the place of `c`. -/
theorem position_spec (hs : n.Sorted) (c : Char) : Separates n.children c (n.position c) :=
  lowerBound_separates hs _ _ _ (Nat.zero_le _) le_rfl le_rfl (by omega)
    (fun j h hj => by omega)

/-- What lies at the place of `c` is its child if anything is. -/
theorem getElem?_position (hs : n.Sorted) (h : (c, k) ∈ n.children.toList) :
    n.children[n.position c]? = some (c, k) := by
  have hp := position_spec hs c
  obtain ⟨j, hj, hjk⟩ := List.getElem_of_mem h
  have hj' : j < n.children.size := by simpa using hj
  have hlab : n.children[j] = (c, k) := by simpa using hjk
  have hge : n.position c ≤ j := by
    by_contra hlt
    have := hp.below j hj' (by omega)
    simp [hlab] at this
  have hle : j ≤ n.position c := by
    by_contra hlt
    have h1 := hp.above (n.position c) (by omega) le_rfl
    have h2 := List.pairwise_iff_getElem.1 hs (n.position c) j (by simp; omega) hj (by omega)
    have h3 : n.children[n.position c].1 < c := by simpa [hlab] using h2
    exact absurd h1 (not_le.2 h3)
  have : n.position c = j := by omega
  rw [this, Array.getElem?_eq_getElem hj', hlab]

/-- The search finds a child exactly if it is there. -/
theorem child?_eq_some_iff (hs : n.Sorted) : n.child? c = some k ↔ (c, k) ∈ n.children.toList := by
  unfold child?
  constructor
  · intro h
    split at h
    · rename_i label next he
      split at h
      · rename_i hl
        have := Array.mem_of_getElem? he
        simp_all
      · exact absurd h (by simp)
    · exact absurd h (by simp)
  · intro h
    simp [getElem?_position hs h]

/-! ## One more child -/

theorem toList_addChild (hs : n.Sorted) (c : Char) (k : Nat) :
    (n.addChild c k).children.toList =
      n.children.toList.take (n.position c) ++ (c, k) :: n.children.toList.drop (n.position c) := by
  have hp := (position_spec hs c).le_size
  unfold addChild
  rw [Array.insertIdxIfInBounds, dif_pos hp, Array.toList_insertIdx]
  obtain ⟨l₁, l₂, hl, hlen, he⟩ := List.exists_of_modifyTailIdx (List.cons (c, k))
    (show n.position c ≤ n.children.toList.length by simpa using hp)
  rw [List.insertIdx, he, hl, ← hlen, List.take_left' rfl, List.drop_left' rfl]

theorem mem_addChild (hs : n.Sorted) :
    (d, m) ∈ (n.addChild c k).children.toList ↔ (d = c ∧ m = k) ∨ (d, m) ∈ n.children.toList := by
  rw [toList_addChild hs]
  conv_rhs => rw [← List.take_append_drop (n.position c) n.children.toList]
  simp only [List.mem_append, List.mem_cons, Prod.mk.injEq]
  exact or_left_comm

@[simp] theorem addChild_word? (n : Node) (c : Char) (k : Nat) :
    (n.addChild c k).word? = n.word? := rfl

/-- A child with a new label keeps the order. -/
theorem Sorted.addChild (hs : n.Sorted) (hc : n.child? c = none) : (n.addChild c k).Sorted := by
  have hp := position_spec hs c
  unfold Sorted
  rw [toList_addChild hs, List.pairwise_append, List.pairwise_cons]
  have hbelow : ∀ a ∈ n.children.toList.take (n.position c), a.1 < c := by
    intro a ha
    obtain ⟨j, hj, rfl⟩ := List.getElem_of_mem ha
    simp only [List.length_take] at hj
    simpa using hp.below j (by simp at hj; omega) (by omega)
  have habove : ∀ a ∈ n.children.toList.drop (n.position c), c < a.1 := by
    intro a ha
    obtain ⟨j, hj, rfl⟩ := List.getElem_of_mem ha
    have hj' : n.position c + j < n.children.size := by simp at hj; omega
    have hle : c ≤ n.children[n.position c + j].1 := hp.above _ hj' (by omega)
    have hne : c ≠ n.children[n.position c + j].1 := by
      intro he
      have hmem : (n.children[n.position c + j].1, n.children[n.position c + j].2) ∈
          n.children.toList := Array.getElem_mem_toList hj'
      rw [← he, ← child?_eq_some_iff hs, hc] at hmem
      exact absurd hmem (by simp)
    simpa using lt_of_le_of_ne hle hne
  refine ⟨hs.sublist (List.take_sublist ..), ⟨habove, hs.sublist (List.drop_sublist ..)⟩, ?_⟩
  intro a ha b hb
  rcases List.mem_cons.1 hb with rfl | hb
  · exact hbelow a ha
  · exact lt_trans (hbelow a ha) (habove b hb)

/-- The child that was added is found under its label, and the others as before. -/
theorem child?_addChild (hs : n.Sorted) (hc : n.child? c = none) :
    (n.addChild c k).child? d = if d = c then some k else n.child? d := by
  have hs' : (n.addChild c k).Sorted := hs.addChild hc
  ext m
  rw [child?_eq_some_iff hs', mem_addChild hs]
  by_cases hd : d = c
  · subst hd
    have hno : (d, m) ∉ n.children.toList := by
      rw [← child?_eq_some_iff hs, hc]; simp
    simp [hno, eq_comm]
  · simp [hd, child?_eq_some_iff hs]

end Translit.Trie.Node
