import Translit.Proofs.Trie.Words

/-!
# The paths of a trie

A sequence of labels leads to a node of a built trie exactly if a word begins with it, and a node
has no child exactly if no sequence goes on from it.

* `Trie.WellFormed.isSome_reach?_insert`: the sequences that an inserted word adds;
* `Trie.isSome_reach?_build`: the sequences that lead to a node of a built trie;
* `Trie.WellFormed.children_eq_empty_iff`: the nodes at which a trie ends.
-/

namespace Translit

/-- A list goes on behind another one exactly if it begins with it and is not the same. -/
theorem exists_concat_prefix_iff {α : Type} {s w : List α} :
    (∃ c, s ++ [c] <+: w) ↔ s <+: w ∧ w ≠ s := by
  constructor
  · rintro ⟨c, more, rfl⟩
    refine ⟨⟨c :: more, by simp⟩, fun h => ?_⟩
    have := congrArg List.length h
    simp at this
  · rintro ⟨⟨more, rfl⟩, hne⟩
    cases more with
    | nil => simp at hne
    | cons c more => exact ⟨c, more, by simp⟩

namespace Trie

variable {t : Trie} {i k : Nat} {p ds es : List Char} {words : List (List Char)}

/-! ## What an insertion adds -/

theorem isSome_reach?_of_prefix (hpre : ds <+: es) (h : (t.reach? i es).isSome) :
    (t.reach? i ds).isSome := by
  obtain ⟨more, rfl⟩ := hpre
  obtain ⟨k, hk⟩ := Option.isSome_iff_exists.1 h
  rw [reach?_append, Option.bind_eq_some_iff] at hk
  obtain ⟨j, hj, -⟩ := hk
  rw [hj]
  rfl

/-- **The sequences that an insertion adds** are those that the word begins with. -/
theorem WellFormed.isSome_reach?_insertFrom (ht : t.WellFormed) (word : Nat) (cs : List Char)
    (hp : t.reach? root p = some i) :
    ((t.insertFrom i word cs).reach? root ds).isSome ↔
      (t.reach? root ds).isSome ∨ ds <+: p ++ cs := by
  induction cs generalizing t i p with
  | nil =>
    rw [insertFrom_nil_reach? word (ht.reach?_lt hp), List.append_nil]
    constructor
    · exact .inl
    · rintro (h | h)
      · exact h
      · exact isSome_reach?_of_prefix h (by simp [hp])
  | cons c cs ih =>
    rw [Trie.insertFrom, ih (ht.extend (ht.reach?_lt hp)) (ht.reach?_extend_self hp),
      ht.reach?_extend hp, List.append_assoc, List.singleton_append]
    by_cases hds : ds = p ++ [c]
    · -- the new edge lies on the way
      have hpre : ds <+: p ++ c :: cs := ⟨cs, by simp [hds]⟩
      simp [hpre]
    · rw [if_neg hds]

theorem WellFormed.isSome_reach?_insert (ht : t.WellFormed) (entry : List Char × Nat) :
    ((t.insert entry).reach? root ds).isSome ↔ (t.reach? root ds).isSome ∨ ds <+: entry.1 :=
  ht.isSome_reach?_insertFrom entry.2 entry.1 (p := []) rfl

/-! ## The paths of a built trie -/

theorem isSome_reach?_empty : (empty.reach? root ds).isSome ↔ ds = [] := by
  cases ds <;> simp [reach?_cons]

theorem isSome_reach?_ofEntries (entries : List (List Char × Nat)) :
    ((ofEntries entries).reach? root ds).isSome ↔ ds = [] ∨ ∃ e ∈ entries, ds <+: e.1 := by
  induction entries using List.reverseRecOn with
  | nil =>
    rw [show ofEntries [] = empty from rfl, isSome_reach?_empty]
    simp
  | append_singleton entries e ih =>
    rw [ofEntries_concat, (wellFormed_ofEntries entries).isSome_reach?_insert, ih]
    simp [or_and_right, exists_or, or_assoc]

theorem wellFormed_build (words : List (List Char)) : (build words).WellFormed :=
  wellFormed_ofEntries _

/-- The words go in with their places in the list. -/
theorem mem_insertionOrder {e : List Char × Nat} :
    e ∈ insertionOrder words ↔ words[e.2]? = some e.1 := by
  have hperm : (insertionOrder words).Perm words.zipIdx := List.mergeSort_perm _ _
  rw [hperm.mem_iff, List.mem_zipIdx_iff_getElem?]

theorem perm_insertionOrder (words : List (List Char)) :
    ((insertionOrder words).map (·.1)).Perm words := by
  have hperm : (insertionOrder words).Perm words.zipIdx := List.mergeSort_perm _ _
  have hmap := hperm.map (·.1)
  rwa [List.zipIdx_map_fst] at hmap

/-- **A sequence leads to a node** of a built trie exactly if a word begins with it; the empty one
always does. -/
theorem isSome_reach?_build :
    ((build words).reach? root ds).isSome ↔ ds = [] ∨ ∃ w ∈ words, ds <+: w := by
  rw [build, isSome_reach?_ofEntries]
  refine or_congr_right ⟨?_, ?_⟩
  · rintro ⟨e, he, hpre⟩
    exact ⟨e.1, (perm_insertionOrder words).mem_iff.1 (List.mem_map_of_mem he), hpre⟩
  · rintro ⟨w, hw, hpre⟩
    obtain ⟨e, he, rfl⟩ := List.mem_map.1 ((perm_insertionOrder words).mem_iff.2 hw)
    exact ⟨e, he, hpre⟩

/-- **A trie ends** at a node exactly if no sequence goes on from it. -/
theorem WellFormed.children_eq_empty_iff (ht : t.WellFormed) (h : t.reach? root ds = some k) :
    (t.node k).children = #[] ↔ ∀ c, t.reach? root (ds ++ [c]) = none := by
  have hstep : ∀ c, t.reach? root (ds ++ [c]) = (t.node k).child? c := by
    intro c
    rw [reach?_concat, h, Option.bind_some]
  constructor
  · intro hempty c
    rw [hstep, Node.child?, hempty]
    simp
  · intro hnone
    by_contra hne
    obtain ⟨a, as, has⟩ := List.exists_cons_of_ne_nil (mt Array.toList_eq_nil_iff.1 hne)
    have hchild : (t.node k).child? a.1 = some a.2 :=
      (Node.child?_eq_some_iff (ht.sorted k)).2 (by simp [has])
    rw [← hstep, hnone] at hchild
    cases hchild

end Trie

end Translit
