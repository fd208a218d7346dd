import Translit.Proofs.Cutting

/-!
# The tokens of a text

A scan takes one step after another: a step gives the token at a place, and the next step begins
behind it. Each step moves on, so a scan comes to an end. Its tokens lie end to end over the text
and each is the longest there can be at its place, and no other tokens are like that.

* `Token.Tile`, `Token.Fits`: tokens that lie end to end, and tokens that are the longest;
* `Trie.next?`, `Trie.Emits`: a step of a scan, and the tokens of all steps;
* `Trie.next?_build`, `Trie.emits_build`: what a step gives, and what all steps give;
* `Trie.scan_eq_iff`: the tokens of a scan are those that lie end to end and are the longest;
* `Trie.scan_build`: that, and that a scan comes to an end.
-/

namespace Translit

variable {words : List (List Char)} {cs : List Char} {pos start stop : Nat} {tok : Token}
  {ts ts' : List Token} {t : Trie}

namespace Token

/-- The tokens lie end to end from `start` to `stop`. -/
def Tile : (start stop : Nat) → List Token → Prop
  | start, stop, [] => start = stop
  | start, stop, t :: ts => t.start = start ∧ Tile t.stop stop ts

/-- The token is the longest there can be at its place: a word that begins there, at its last place
in the list, if no longer one begins there; or a character, if no word begins there but the empty
one. -/
def Fits (words : List (List Char)) (cs : List Char) : Token → Prop
  | literal pos c => cs[pos]? = some c ∧ ∀ w ∈ words, w <+: cs.drop pos → w = []
  | word i start stop =>
    start < stop ∧ stop ≤ cs.length ∧ LastAt words i ((cs.drop start).take (stop - start)) ∧
      ∀ w ∈ words, w <+: cs.drop start → w.length ≤ stop - start

instance Tile.decidable (start stop : Nat) : (ts : List Token) → Decidable (Tile start stop ts)
  | [] => inferInstanceAs (Decidable (start = stop))
  | t :: ts =>
    have := Tile.decidable t.stop stop ts
    inferInstanceAs (Decidable (t.start = start ∧ Tile t.stop stop ts))

instance : DecidablePred (Fits words cs)
  | literal _ _ => inferInstanceAs (Decidable (_ ∧ _))
  | word _ _ _ => inferInstanceAs (Decidable (_ ∧ _ ∧ _ ∧ _))

theorem Fits.start_lt_stop (h : tok.Fits words cs) : tok.start < tok.stop := by
  cases tok with
  | literal pos c => exact Nat.lt_succ_self pos
  | word i start stop => exact h.1

theorem fits_word_iff {i : Nat} : (word i start stop).Fits words cs ↔
    start < stop ∧ IsLongest words (cs.drop start) ⟨i, stop - start⟩ := by
  constructor
  · rintro ⟨hlt, hle, hlast, hlongest⟩
    refine ⟨hlt, Nat.sub_pos_of_lt hlt, ?_, hlast, hlongest⟩
    rw [List.length_drop]
    exact Nat.sub_le_sub_right hle start
  · rintro ⟨hlt, hlong⟩
    refine ⟨hlt, ?_, hlong.lastAt, hlong.longest⟩
    have hle := hlong.le_length
    rw [List.length_drop] at hle
    dsimp only at hle
    omega

/-! ## Tokens end to end -/

theorem tile_append {mid : Nat} (h : Tile start mid ts) (h' : Tile mid stop ts') :
    Tile start stop (ts ++ ts') := by
  induction ts generalizing start with
  | nil =>
    cases h
    exact h'
  | cons t ts ih =>
    obtain ⟨rfl, hrest⟩ := h
    exact ⟨rfl, ih hrest⟩

/-- The tokens up to one of them, and those behind it. -/
theorem Tile.split (h : Tile start stop (ts ++ tok :: ts')) :
    Tile start tok.stop (ts ++ [tok]) ∧ Tile tok.stop stop ts' := by
  induction ts generalizing start with
  | nil =>
    obtain ⟨rfl, hrest⟩ := h
    exact ⟨⟨rfl, rfl⟩, hrest⟩
  | cons t ts ih =>
    obtain ⟨rfl, hrest⟩ := h
    obtain ⟨hfirst, hlast⟩ := ih hrest
    exact ⟨⟨rfl, hfirst⟩, hlast⟩

theorem Tile.le (h : Tile start stop ts) (hfits : ∀ tok ∈ ts, tok.Fits words cs) :
    start ≤ stop := by
  induction ts generalizing start with
  | nil => exact Nat.le_of_eq h
  | cons t ts ih =>
    obtain ⟨rfl, hrest⟩ := h
    have hlt := (hfits t List.mem_cons_self).start_lt_stop
    have hle := ih hrest fun tok htok => hfits tok (List.mem_cons_of_mem t htok)
    omega

theorem Tile.stop_le (h : Tile start stop ts) (hfits : ∀ tok ∈ ts, tok.Fits words cs)
    (htok : tok ∈ ts) : tok.stop ≤ stop := by
  obtain ⟨first, last, rfl⟩ := List.append_of_mem htok
  apply h.split.2.le
  intro tok' htok'
  exact hfits tok' (by simp [htok'])

/-- Unless there are none, the last of the tokens ends where they all end. -/
theorem Tile.exists_stop (h : Tile start stop ts) (hne : start ≠ stop) :
    ∃ tok ∈ ts, tok.stop = stop := by
  induction ts generalizing start with
  | nil => exact absurd h hne
  | cons t ts ih =>
    obtain ⟨rfl, hrest⟩ := h
    by_cases ht : t.stop = stop
    · exact ⟨t, List.mem_cons_self, ht⟩
    · obtain ⟨tok, htok, hstop⟩ := ih hrest ht
      exact ⟨tok, List.mem_cons_of_mem t htok, hstop⟩

end Token

namespace Trie

/-! ## A step -/

/-- The token at the place `pos` of a text; there is none at its end. -/
def next? (t : Trie) (cs : List Char) (pos : Nat) : Option Token :=
  match cs[pos]? with
  | some c =>
    match t.longestMatch cs pos with
    | some m => some (.word m.word pos (pos + m.length))
    | none => some (.literal pos c)
  | none => none

/-- The tokens that one step after another gives from the place `pos` on, until there is none. -/
inductive Emits (t : Trie) (cs : List Char) : Nat → List Token → Prop
  | done {pos : Nat} (none : t.next? cs pos = none) : Emits t cs pos []
  | step {pos : Nat} {tok : Token} {ts : List Token} (some : t.next? cs pos = some tok)
      (rest : Emits t cs tok.stop ts) : Emits t cs pos (tok :: ts)

theorem next?_eq_none : t.next? cs pos = none ↔ cs.length ≤ pos := by
  unfold next?
  rw [← List.getElem?_eq_none_iff]
  cases cs[pos]? with
  | none => simp
  | some c => cases t.longestMatch cs pos <;> simp

/-- What a step can give. -/
theorem next?_eq_some : t.next? cs pos = some tok ↔ ∃ c, cs[pos]? = some c ∧
    (t.longest (cs.drop pos) = none ∧ tok = .literal pos c ∨
      ∃ m, t.longest (cs.drop pos) = some m ∧ tok = .word m.word pos (pos + m.length)) := by
  unfold next? longestMatch
  cases cs[pos]? with
  | none => simp
  | some c => cases t.longest (cs.drop pos) <;> simp [eq_comm]

/-- **A step moves on**, and not beyond the end of the text. -/
theorem next?_moves (h : t.next? cs pos = some tok) : pos < tok.stop ∧ tok.stop ≤ cs.length := by
  obtain ⟨c, hc, h⟩ := next?_eq_some.1 h
  have hpos : pos < cs.length := (List.getElem?_eq_some_iff.1 hc).1
  rcases h with ⟨-, rfl⟩ | ⟨m, hm, rfl⟩
  · exact ⟨Nat.lt_succ_self pos, hpos⟩
  · have hlt := length_pos_of_longest hm
    have hle := length_le_of_longest hm
    rw [List.length_drop] at hle
    simp only [Token.stop]
    omega

theorem scanFrom_drop (h : t.next? cs pos = some tok) :
    t.scanFrom pos 0 (cs.drop pos) = tok :: t.scanFrom tok.stop 0 (cs.drop tok.stop) := by
  obtain ⟨c, hc, h⟩ := next?_eq_some.1 h
  obtain ⟨hpos, rfl⟩ := List.getElem?_eq_some_iff.1 hc
  have hdrop : cs.drop pos = cs[pos] :: cs.drop (pos + 1) := List.drop_eq_getElem_cons hpos
  rw [hdrop] at h ⊢
  rw [scanFrom]
  rcases h with ⟨hnone, rfl⟩ | ⟨m, hm, rfl⟩
  · rw [hnone]
    rfl
  · have hlt := length_pos_of_longest hm
    have hstop : pos + 1 + (m.length - 1) = pos + m.length := by omega
    rw [hm]
    simp only [Token.stop]
    rw [scanFrom_skip, List.drop_drop, hstop]

/-- **A scan comes to an end**, and its tokens are those of its steps. -/
theorem emits_scanFrom (t : Trie) (cs : List Char) (pos : Nat) :
    t.Emits cs pos (t.scanFrom pos 0 (cs.drop pos)) := by
  -- what is left of the text becomes less with each step
  induction hn : cs.length - pos using Nat.strong_induction_on generalizing pos with
  | _ n ih =>
    cases h : t.next? cs pos with
    | none =>
      rw [List.drop_eq_nil_of_le (next?_eq_none.1 h), scanFrom]
      exact .done h
    | some tok =>
      obtain ⟨hlt, hle⟩ := next?_moves h
      rw [scanFrom_drop h]
      apply Emits.step h
      exact ih (cs.length - tok.stop) (by omega) tok.stop rfl

theorem Emits.unique (h : t.Emits cs pos ts) (h' : t.Emits cs pos ts') : ts = ts' := by
  induction h generalizing ts' with
  | done none =>
    cases h' with
    | done => rfl
    | step some => simp [none] at some
  | step some _ ih =>
    cases h' with
    | done none => simp [none] at some
    | step some' rest' =>
      rw [some, Option.some.injEq] at some'
      subst some'
      rw [ih rest']

/-! ## The steps of a built trie -/

/-- **What a step gives**: the token that is the longest there can be at the place. -/
theorem next?_build :
    (build words).next? cs pos = some tok ↔ tok.start = pos ∧ tok.Fits words cs := by
  rw [next?_eq_some]
  constructor
  · rintro ⟨c, hc, ⟨hnone, rfl⟩ | ⟨m, hm, rfl⟩⟩
    · exact ⟨rfl, hc, longest_build_eq_none.1 hnone⟩
    · have hlong := longest_build.1 hm
      have hlen : pos + m.length - pos = m.length := by omega
      refine ⟨rfl, Token.fits_word_iff.2 ⟨Nat.lt_add_of_pos_right hlong.pos, ?_⟩⟩
      rw [hlen]
      exact hlong
  · rintro ⟨rfl, hfits⟩
    cases tok with
    | literal pos c =>
      obtain ⟨hc, hnone⟩ := hfits
      exact ⟨c, hc, .inl ⟨longest_build_eq_none.2 hnone, rfl⟩⟩
    | word i start stop =>
      obtain ⟨hlt, hlong⟩ := Token.fits_word_iff.1 hfits
      have hpos : start < cs.length := Nat.lt_of_lt_of_le hlt hfits.2.1
      have hstop : start + (stop - start) = stop := Nat.add_sub_cancel' (Nat.le_of_lt hlt)
      refine ⟨cs[start], List.getElem?_eq_getElem hpos, .inr ?_⟩
      refine ⟨_, longest_build.2 hlong, ?_⟩
      simp only [Token.start, hstop]

/-- **What all steps give**: the tokens that lie end to end over the rest of the text and are the
longest there can be. -/
theorem emits_build (hpos : pos ≤ cs.length) : (build words).Emits cs pos ts ↔
    Token.Tile pos cs.length ts ∧ ∀ tok ∈ ts, tok.Fits words cs := by
  constructor
  · intro h
    induction h with
    | done none =>
      refine ⟨?_, by simp⟩
      exact Nat.le_antisymm hpos (next?_eq_none.1 none)
    | @step pos tok ts some rest ih =>
      obtain ⟨rfl, hfits⟩ := next?_build.1 some
      obtain ⟨htile, hall⟩ := ih (next?_moves some).2
      refine ⟨⟨rfl, htile⟩, ?_⟩
      intro tok' htok'
      rcases List.mem_cons.1 htok' with rfl | htok'
      · exact hfits
      · exact hall tok' htok'
  · -- each token in turn is the one that the step at its place gives
    rintro ⟨htile, hall⟩
    induction ts generalizing pos with
    | nil =>
      apply Emits.done
      exact next?_eq_none.2 (Nat.le_of_eq htile.symm)
    | cons tok ts ih =>
      obtain ⟨rfl, hrest⟩ := htile
      have hnext : (build words).next? cs tok.start = some tok :=
        next?_build.2 ⟨rfl, hall tok List.mem_cons_self⟩
      apply Emits.step hnext
      exact ih (next?_moves hnext).2 hrest fun tok' htok' =>
        hall tok' (List.mem_cons_of_mem tok htok')

theorem emits_scan (t : Trie) (cs : List Char) : t.Emits cs 0 (t.scan cs) := t.emits_scanFrom cs 0

theorem scan_eq_iff : (build words).scan cs = ts ↔
    Token.Tile 0 cs.length ts ∧ ∀ tok ∈ ts, tok.Fits words cs := by
  rw [← emits_build (Nat.zero_le _)]
  constructor
  · rintro rfl
    exact emits_scan _ cs
  · intro h
    exact (emits_scan _ cs).unique h

theorem tile_scan (words : List (List Char)) (cs : List Char) :
    Token.Tile 0 cs.length ((build words).scan cs) := (scan_eq_iff.1 rfl).1

theorem fits_of_mem_scan (h : tok ∈ (build words).scan cs) : tok.Fits words cs :=
  (scan_eq_iff.1 rfl).2 tok h

/-- **The tokens of a text.** One step after another a scan comes to the end of the text. The tokens
that it gives on the way are the only ones that lie end to end over the text and of which each is
the longest there can be at its place. -/
theorem scan_build (words : List (List Char)) (cs : List Char) :
    (∀ pos tok, (build words).next? cs pos = some tok → pos < tok.stop ∧ tok.stop ≤ cs.length) ∧
    (build words).Emits cs 0 ((build words).scan cs) ∧
    ∀ ts, (build words).scan cs = ts ↔
      Token.Tile 0 cs.length ts ∧ ∀ tok ∈ ts, tok.Fits words cs := by
  refine ⟨fun _ _ => next?_moves, emits_scan _ cs, ?_⟩
  intro ts
  exact scan_eq_iff

/-- Words that begin alike, one of them empty and one of them there twice. -/
def nested : List (List Char) := ["a".toList, [], "ab".toList, "abcd".toList, "a".toList]

/-- The empty word is never cut off, of equal words the later one counts, and a step that has gone
too far for a word comes back. -/
theorem nested_scan_build :
    (build nested).scan "aabcc".toList =
      [.word 4 0 1, .word 2 1 3, .literal 3 'c', .literal 4 'c'] ∧
    (build nested).next? "aabcc".toList 1 = some (.word 2 1 3) ∧
    1 < 3 ∧ Token.Fits nested "aabcc".toList (.word 2 1 3) := by
  obtain ⟨hmoves, -, hunique⟩ := scan_build nested "aabcc".toList
  have hscan : (build nested).scan "aabcc".toList =
      [.word 4 0 1, .word 2 1 3, .literal 3 'c', .literal 4 'c'] := (hunique _).2 (by decide)
  have hnext : (build nested).next? "aabcc".toList 1 = some (.word 2 1 3) :=
    next?_build.2 (by decide)
  exact ⟨hscan, hnext, (hmoves _ _ hnext).1, by decide⟩

end Trie

end Translit
