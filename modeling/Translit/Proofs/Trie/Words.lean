import Translit.Proofs.Trie.Arena

/-!
# The words of a trie

A trie that is built from a list of words knows each of them by its last place in the list, in
whatever order they went in. A search for the longest word finds the longest of those that begin
the text.

* `LastAt`: the last place of a word in a list;
* `Trie.wordAt?_build`: what a built trie knows of a sequence;
* `IsLongest`: the longest word that begins a text, at its last place;
* `Trie.longest_build`, `Trie.longest_build_eq_none`: the search finds it, and finds none only if
  there is none;
* `Trie.longest_build_congr`: what the search depends on.
-/

namespace Translit

variable {words : List (List Char)} {w v cs : List Char} {i j l : Nat}

/-! ## The last place of a word -/

/-- `i` is the last place of `w` in the list. -/
structure LastAt (words : List (List Char)) (i : Nat) (w : List Char) : Prop where
  here : words[i]? = some w
  last : ∀ j, words[j]? = some w → j ≤ i

theorem lastAt_iff : LastAt words i w ↔
    words[i]? = some w ∧ ∀ j < words.length, words[j]? = some w → j ≤ i := by
  constructor
  · intro h
    exact ⟨h.here, fun j _ => h.last j⟩
  · rintro ⟨hhere, hlast⟩
    exact ⟨hhere, fun j hj => hlast j (List.getElem?_eq_some_iff.1 hj).1 hj⟩

instance : Decidable (LastAt words i w) := decidable_of_iff _ lastAt_iff.symm

theorem not_lastAt_nil : ¬ LastAt [] i w := fun h => by simpa using h.here

theorem LastAt.mem (h : LastAt words i w) : w ∈ words := List.mem_of_getElem? h.here

theorem LastAt.unique (h : LastAt words i w) (h' : LastAt words j w) : i = j :=
  Nat.le_antisymm (h'.last _ h.here) (h.last _ h'.here)

/-- At the end of a longer list the new word has its last place there, and the others stay. -/
theorem lastAt_concat : LastAt (words ++ [v]) i w ↔
    if w = v then i = words.length else LastAt words i w := by
  have hlen : (words ++ [v])[words.length]? = some v := by simp
  split
  · rename_i hwv
    subst hwv
    constructor
    · intro h
      have h1 := h.last _ hlen
      have h2 := (List.getElem?_eq_some_iff.1 h.here).1
      simp at h2
      omega
    · rintro rfl
      refine ⟨hlen, fun j hj => ?_⟩
      have := (List.getElem?_eq_some_iff.1 hj).1
      simp at this
      omega
  · rename_i hwv
    have key : ∀ j : Nat, (words ++ [v])[j]? = some w ↔ words[j]? = some w := by
      intro j
      rcases Nat.lt_trichotomy j words.length with hj | hj | hj
      · rw [List.getElem?_append_left hj]
      · simp [hj, Ne.symm hwv]
      · have hlong : (words ++ [v]).length ≤ j := by
          rw [List.length_append, List.length_singleton]
          omega
        rw [List.getElem?_eq_none hlong, List.getElem?_eq_none (Nat.le_of_lt hj)]
    constructor
    · intro h
      exact ⟨(key i).1 h.here, fun j hj => h.last j ((key j).2 hj)⟩
    · intro h
      exact ⟨(key i).2 h.here, fun j hj => h.last j ((key j).1 hj)⟩

theorem exists_lastAt (h : w ∈ words) : ∃ i, LastAt words i w := by
  induction words using List.reverseRecOn with
  | nil => simp at h
  | append_singleton words v ih =>
    by_cases hwv : w = v
    · exact ⟨words.length, lastAt_concat.2 (by rw [if_pos hwv])⟩
    · obtain ⟨i, hi⟩ := ih (by simpa [hwv] using h)
      exact ⟨i, lastAt_concat.2 (by rwa [if_neg hwv])⟩

namespace Trie

/-! ## Building -/

/-- The entries of a word, in order. -/
def entriesOf (entries : List (List Char × Nat)) (w : List Char) : List (List Char × Nat) :=
  entries.filter fun e => e.1 = w

theorem entriesOf_append (entries more : List (List Char × Nat)) (w : List Char) :
    entriesOf (entries ++ more) w = entriesOf entries w ++ entriesOf more w :=
  List.filter_append _ _

theorem ofEntries_concat (entries : List (List Char × Nat)) (e : List Char × Nat) :
    ofEntries (entries ++ [e]) = (ofEntries entries).insert e := by
  simp [ofEntries]

theorem wellFormed_ofEntries (entries : List (List Char × Nat)) :
    (ofEntries entries).WellFormed := by
  induction entries using List.reverseRecOn with
  | nil => exact wellFormed_empty
  | append_singleton entries e ih =>
    rw [ofEntries_concat]
    exact ih.insert e

/-- Of the entries with one word the last counts. -/
theorem wordAt?_ofEntries (entries : List (List Char × Nat)) (w : List Char) :
    (ofEntries entries).wordAt? root w = (entriesOf entries w).getLast?.map (·.2) := by
  induction entries using List.reverseRecOn with
  | nil => exact wordAt?_empty w
  | append_singleton entries e ih =>
    rw [ofEntries_concat, (wellFormed_ofEntries entries).wordAt?_insert, ih, entriesOf_append]
    by_cases h : w = e.1
    · simp [entriesOf, h]
    · simp [entriesOf, h, Ne.symm h]

/-- **The order of insertion does not matter.** It is stable, and two entries of one word are of
equal length. -/
theorem entriesOf_insertionOrder (words : List (List Char)) (w : List Char) :
    entriesOf (insertionOrder words) w = entriesOf words.zipIdx w := by
  have hsub : (entriesOf words.zipIdx w).Sublist (insertionOrder words) := by
    refine List.sublist_mergeSort ?_ ?_ ?_ List.filter_sublist
    · intro a b c hab hbc
      simp only [decide_eq_true_eq] at hab hbc ⊢
      omega
    · intro a b
      simp only [Bool.or_eq_true, decide_eq_true_eq]
      omega
    · refine List.pairwise_of_forall_mem_list fun a ha b hb => ?_
      simp only [entriesOf, List.mem_filter, decide_eq_true_eq] at ha hb
      simp [ha.2, hb.2]
  have hperm : (entriesOf (insertionOrder words) w).Perm (entriesOf words.zipIdx w) :=
    (List.mergeSort_perm _ _).filter _
  have hsub' : (entriesOf words.zipIdx w).Sublist (entriesOf (insertionOrder words) w) := by
    have := hsub.filter fun e => decide (e.1 = w)
    simpa only [entriesOf, List.filter_filter, Bool.and_self] using this
  exact (hsub'.eq_of_length hperm.length_eq.symm).symm

theorem getLast?_entriesOf_zipIdx :
    (entriesOf words.zipIdx w).getLast?.map (·.2) = some i ↔ LastAt words i w := by
  induction words using List.reverseRecOn generalizing i with
  | nil => simp [entriesOf, not_lastAt_nil]
  | append_singleton words v ih =>
    rw [lastAt_concat, ← ih, List.zipIdx_append, entriesOf_append]
    by_cases h : w = v
    · simp [entriesOf, h, eq_comm]
    · simp [entriesOf, h, Ne.symm h]

/-- **What a built trie knows of a sequence**: its last place among the words. -/
theorem wordAt?_build : (build words).wordAt? root w = some i ↔ LastAt words i w := by
  rw [build, wordAt?_ofEntries, entriesOf_insertionOrder, getLast?_entriesOf_zipIdx]

theorem wordAt?_build_eq_none : (build words).wordAt? root w = none ↔ w ∉ words := by
  constructor
  · intro h hw
    obtain ⟨i, hi⟩ := exists_lastAt hw
    rw [wordAt?_build.2 hi] at h
    exact absurd h (by simp)
  · intro h
    cases hi : (build words).wordAt? root w with
    | none => rfl
    | some i => exact absurd (wordAt?_build.1 hi).mem h

/-! ## Searching -/

/-- **The walk.** It comes back with the last word it has passed, and with none only if it has
passed none. -/
theorem longestFrom_spec (t : Trie) (i : Nat) (cs : List Char) :
    (∀ m, t.longestFrom i cs = some m →
      0 < m.length ∧ m.length ≤ cs.length ∧ t.wordAt? i (cs.take m.length) = some m.word ∧
        ∀ l, m.length < l → l ≤ cs.length → t.wordAt? i (cs.take l) = none) ∧
    (t.longestFrom i cs = none → ∀ l, 0 < l → l ≤ cs.length → t.wordAt? i (cs.take l) = none) := by
  induction cs generalizing i with
  | nil =>
    refine ⟨fun m h => by simp [longestFrom] at h, fun _ l hl hle => ?_⟩
    simp at hle
    omega
  | cons c cs ih =>
    rw [longestFrom]
    cases hc : (t.node i).child? c with
    | none =>
      refine ⟨fun m h => by simp at h, fun _ l hl _ => ?_⟩
      obtain ⟨l, rfl⟩ := Nat.exists_eq_succ_of_ne_zero (Nat.ne_of_gt hl)
      rw [List.take_succ_cons, wordAt?_cons, hc, Option.bind_none]
    | some next =>
      have hstep : ∀ l, 0 < l →
          t.wordAt? i ((c :: cs).take l) = t.wordAt? next (cs.take (l - 1)) := by
        intro l hl
        obtain ⟨l, rfl⟩ := Nat.exists_eq_succ_of_ne_zero (Nat.ne_of_gt hl)
        rw [List.take_succ_cons, wordAt?_cons, hc, Option.bind_some, Nat.succ_sub_one]
      obtain ⟨hsome, hnone⟩ := ih next
      cases hm : t.longestFrom next cs with
      | some m =>
        -- the word lies further on
        obtain ⟨hpos, hle, hword, hmax⟩ := hsome m hm
        refine ⟨fun m' h => ?_, fun h => by simp [hm] at h⟩
        simp only [hm, Option.some.injEq] at h
        subst h
        refine ⟨Nat.succ_pos _, by simpa using hle, ?_, fun l hl hl' => ?_⟩
        · rw [hstep _ (Nat.succ_pos _)]
          exact hword
        · simp only [List.length_cons] at hl hl'
          rw [hstep l (by omega)]
          exact hmax (l - 1) (by omega) (by omega)
      | none =>
        -- nothing lies further on: the word at `next`, if any
        have hlater := hnone hm
        refine ⟨fun m h => ?_, fun h l hl hl' => ?_⟩
        · simp only [hm, Option.map_eq_some_iff] at h
          obtain ⟨word, hword, rfl⟩ := h
          refine ⟨Nat.one_pos, by simp, ?_, fun l hl hl' => ?_⟩
          · rw [hstep 1 Nat.one_pos]
            exact hword
          · simp only [List.length_cons] at hl hl'
            rw [hstep l (by omega)]
            exact hlater (l - 1) (by omega) (by omega)
        · simp only [List.length_cons] at hl'
          rw [hstep l hl]
          rcases Nat.eq_zero_or_pos (l - 1) with hl0 | hl0
          · rw [hl0]
            simpa [hm] using h
          · exact hlater (l - 1) hl0 (by omega)

/-- The search finds the longest beginning of the text that is a word, unless it is empty. -/
theorem longest_eq_some_iff {t : Trie} {m : Match} : t.longest cs = some m ↔
    0 < m.length ∧ m.length ≤ cs.length ∧ t.wordAt? root (cs.take m.length) = some m.word ∧
      ∀ l, m.length < l → l ≤ cs.length → t.wordAt? root (cs.take l) = none := by
  obtain ⟨hsome, hnone⟩ := longestFrom_spec t root cs
  refine ⟨hsome m, ?_⟩
  rintro ⟨hpos, hle, hword, hmax⟩
  cases hm : t.longest cs with
  | none =>
    have hno := hnone hm m.length hpos hle
    rw [hword] at hno
    cases hno
  | some m' =>
    obtain ⟨-, hle', hword', hmax'⟩ := hsome m' hm
    have hlen : m'.length = m.length := by
      rcases Nat.lt_trichotomy m'.length m.length with hlt | heq | hgt
      · exact absurd (hmax' m.length hlt hle) (by simp [hword])
      · exact heq
      · exact absurd (hmax m'.length hgt hle') (by simp [hword'])
    rw [hlen, hword] at hword'
    cases m
    cases m'
    simp_all

theorem length_pos_of_longest {t : Trie} {m : Match} (h : t.longest cs = some m) : 0 < m.length :=
  (longest_eq_some_iff.1 h).1

theorem length_le_of_longest {t : Trie} {m : Match} (h : t.longest cs = some m) :
    m.length ≤ cs.length :=
  (longest_eq_some_iff.1 h).2.1

end Trie

/-- The longest word that begins a text, unless it is empty, at its last place. -/
structure IsLongest (words : List (List Char)) (cs : List Char) (m : Trie.Match) : Prop where
  pos : 0 < m.length
  le_length : m.length ≤ cs.length
  lastAt : LastAt words m.word (cs.take m.length)
  longest : ∀ w ∈ words, w <+: cs → w.length ≤ m.length

namespace IsLongest

variable {m m' : Trie.Match}

theorem unique (h : IsLongest words cs m) (h' : IsLongest words cs m') : m = m' := by
  have h1 := h.longest _ h'.lastAt.mem (List.take_prefix _ _)
  have h2 := h'.longest _ h.lastAt.mem (List.take_prefix _ _)
  rw [List.length_take_of_le h'.le_length] at h1
  rw [List.length_take_of_le h.le_length] at h2
  have hlen : m.length = m'.length := Nat.le_antisymm h2 h1
  have hword := h.lastAt
  rw [hlen] at hword
  have := hword.unique h'.lastAt
  cases m
  cases m'
  simp_all

/-- The longest word that begins a text also begins each text that begins with the same words. -/
theorem congr {cs' : List Char} (h : IsLongest words cs m)
    (he : ∀ w ∈ words, w <+: cs ↔ w <+: cs') : IsLongest words cs' m := by
  have hpre : cs.take m.length <+: cs' := (he _ h.lastAt.mem).1 (List.take_prefix _ _)
  have hlen : (cs.take m.length).length = m.length := List.length_take_of_le h.le_length
  have htake : cs.take m.length = cs'.take m.length := by
    have := List.prefix_iff_eq_take.1 hpre
    rwa [hlen] at this
  refine ⟨h.pos, hlen ▸ hpre.length_le, htake ▸ h.lastAt, fun w hw hw' => ?_⟩
  exact h.longest w hw ((he w hw).2 hw')

/-- Where there is a longest word, not only the empty one begins the text. -/
theorem not_forall_eq_nil (h : IsLongest words cs m) : ¬ ∀ w ∈ words, w <+: cs → w = [] := by
  intro hall
  have hlen := congrArg List.length (hall _ h.lastAt.mem (List.take_prefix _ _))
  rw [List.length_take_of_le h.le_length, List.length_nil] at hlen
  exact absurd hlen (Nat.ne_of_gt h.pos)

end IsLongest

namespace Trie

variable {m : Match}

theorem isLongest_of_longest (h : (build words).longest cs = some m) : IsLongest words cs m := by
  obtain ⟨hpos, hle, hword, hmax⟩ := longest_eq_some_iff.1 h
  refine ⟨hpos, hle, wordAt?_build.1 hword, fun w hw hpre => ?_⟩
  by_contra hlt
  have := hmax w.length (by omega) hpre.length_le
  rw [← List.prefix_iff_eq_take.1 hpre, wordAt?_build_eq_none] at this
  exact this hw

theorem longest_build_eq_none :
    (build words).longest cs = none ↔ ∀ w ∈ words, w <+: cs → w = [] := by
  constructor
  · intro h w hw hpre
    by_contra hne
    have := (longestFrom_spec (build words) root cs).2 h w.length (List.length_pos_iff.2 hne)
      hpre.length_le
    rw [← List.prefix_iff_eq_take.1 hpre, wordAt?_build_eq_none] at this
    exact this hw
  · intro h
    cases hm : (build words).longest cs with
    | none => rfl
    | some m => exact absurd h (isLongest_of_longest hm).not_forall_eq_nil

/-- **The search finds the longest word that begins the text.** -/
theorem longest_build : (build words).longest cs = some m ↔ IsLongest words cs m := by
  refine ⟨isLongest_of_longest, fun h => ?_⟩
  cases hm : (build words).longest cs with
  | some m' => rw [(isLongest_of_longest hm).unique h]
  | none => exact absurd (longest_build_eq_none.1 hm) h.not_forall_eq_nil

/-- Where texts begin with the same words, the search finds the same. -/
theorem longest_build_congr {cs' : List Char} (h : ∀ w ∈ words, w <+: cs ↔ w <+: cs') :
    (build words).longest cs = (build words).longest cs' := by
  refine Option.ext fun m => ?_
  rw [longest_build, longest_build]
  exact ⟨fun hm => hm.congr h, fun hm => hm.congr fun w hw => (h w hw).symm⟩

end Trie

end Translit
