import Translit.Proofs.Tokens

/-!
# Scanning two texts at once

Two texts that are joined are scanned as they are alone, the second with its places moved on, if a
token ends at the seam. It does where no word lies across the seam.

* `Token.shift`: a token whose text stands further on;
* `Token.Boundary`, `NoneAcross`: a place where a token ends, and a seam that no word lies across;
* `scan_append_of_fits`: what is needed of the tokens of the first text;
* `Trie.scan_append`: the tokens of two texts that are joined.
-/

namespace Translit

variable {words : List (List Char)} {u v w : List Char} {n pos start stop : Nat} {tok : Token}
  {ts : List Token}

namespace Token

/-- The token of a text in front of which `n` more characters stand. -/
def shift (n : Nat) : Token → Token
  | literal pos c => literal (pos + n) c
  | word i start stop => word i (start + n) (stop + n)

/-- A token ends at the place `n`, or no text lies in front of it. -/
def Boundary (ts : List Token) (n : Nat) : Prop := n = 0 ∨ ∃ tok ∈ ts, tok.stop = n

@[simp] theorem start_shift (n : Nat) (tok : Token) : (tok.shift n).start = tok.start + n := by
  cases tok <;> rfl

@[simp] theorem stop_shift (n : Nat) (tok : Token) : (tok.shift n).stop = tok.stop + n := by
  cases tok with
  | literal pos c => exact Nat.add_right_comm pos n 1
  | word i start stop => rfl

theorem Tile.shift (n : Nat) (h : Tile start stop ts) :
    Tile (start + n) (stop + n) (ts.map (Token.shift n)) := by
  induction ts generalizing start with
  | nil => exact congrArg (· + n) h
  | cons tok ts ih =>
    obtain ⟨rfl, hrest⟩ := h
    refine ⟨start_shift n tok, ?_⟩
    rw [stop_shift]
    exact ih hrest

theorem Boundary.exists_tile (h : Boundary ts n) (htile : Tile 0 stop ts) :
    ∃ first last, ts = first ++ last ∧ Tile 0 n first := by
  rcases h with rfl | ⟨tok, htok, rfl⟩
  · exact ⟨[], ts, rfl, rfl⟩
  · obtain ⟨first, last, rfl⟩ := List.append_of_mem htok
    refine ⟨first ++ [tok], last, by simp, ?_⟩
    exact htile.split.1

end Token

/-! ## Places in the first text -/

/-- No word lies across the seam of two texts: none ends the first with one part of it and begins
the second with the other. -/
def NoneAcross (words : List (List Char)) (u v : List Char) : Prop :=
  ∀ x y, x ≠ [] → y ≠ [] → x ++ y ∈ words → x <:+ u → ¬ y <+: v

theorem noneAcross_iff : NoneAcross words u v ↔
    ∀ w ∈ words, ∀ k < w.length, 0 < k → w.take k <:+ u → ¬ w.drop k <+: v := by
  constructor
  · intro h w hw k hlt hpos
    apply h
    · apply List.ne_nil_of_length_pos
      rw [List.length_take]
      omega
    · simpa using hlt
    · simpa using hw
  · intro h x y hx hy hxy
    have hlt : x.length < (x ++ y).length := by
      rw [List.length_append]
      exact Nat.lt_add_of_pos_right (List.length_pos_iff.2 hy)
    simpa using h (x ++ y) hxy x.length hlt (List.length_pos_iff.2 hx)

instance : Decidable (NoneAcross words u v) := decidable_of_iff _ noneAcross_iff.symm

theorem take_drop_append_left (hlt : start < stop) (hle : stop ≤ u.length) :
    ((u ++ v).drop start).take (stop - start) = (u.drop start).take (stop - start) := by
  rw [List.drop_append_of_le_length (by omega), List.take_append_of_le_length]
  rw [List.length_drop]
  omega

theorem NoneAcross.prefix_drop (h : NoneAcross words u v) (hw : w ∈ words) (hpos : pos < u.length)
    (hpre : w <+: (u ++ v).drop pos) : w <+: u.drop pos := by
  rw [List.drop_append_of_le_length (Nat.le_of_lt hpos)] at hpre
  obtain ⟨rest, hrest⟩ := hpre
  rcases List.append_eq_append_iff.1 hrest with ⟨x, hx, -⟩ | ⟨y, hy, hv⟩
  · exact ⟨x, hx.symm⟩
  · -- what remains of the word behind the seam would begin the second text
    by_cases hne : y = []
    · simp [hy, hne]
    · have hdrop : u.drop pos ≠ [] := by simpa using hpos
      rw [hy] at hw
      have hno := h (u.drop pos) y hdrop hne hw (List.drop_suffix pos u)
      exact absurd ⟨rest, hv.symm⟩ hno

namespace Token

/-- A token that ends within the first text is the longest there, too. -/
theorem Fits.of_append (h : tok.Fits words (u ++ v)) (hstop : tok.stop ≤ u.length) :
    tok.Fits words u := by
  have hdrop : u.drop tok.start <+: (u ++ v).drop tok.start := by
    have := h.start_lt_stop
    rw [List.drop_append_of_le_length (by omega)]
    exact List.prefix_append _ v
  cases tok with
  | literal pos c =>
    obtain ⟨hc, hnone⟩ := h
    constructor
    · rwa [List.getElem?_append_left hstop] at hc
    · intro w hw hpre
      exact hnone w hw (hpre.trans hdrop)
  | word i start stop =>
    obtain ⟨hlt, -, hlast, hlongest⟩ := h
    rw [take_drop_append_left hlt hstop] at hlast
    refine ⟨hlt, hstop, hlast, ?_⟩
    intro w hw hpre
    exact hlongest w hw (hpre.trans hdrop)

/-- Where no word lies across the seam, the longest token within the first text stays so. -/
theorem Fits.append (hnone : NoneAcross words u v) (h : tok.Fits words u) :
    tok.Fits words (u ++ v) := by
  cases tok with
  | literal pos c =>
    obtain ⟨hc, hempty⟩ := h
    have hpos : pos < u.length := (List.getElem?_eq_some_iff.1 hc).1
    constructor
    · rwa [List.getElem?_append_left hpos]
    · intro w hw hpre
      exact hempty w hw (hnone.prefix_drop hw hpos hpre)
  | word i start stop =>
    obtain ⟨hlt, hle, hlast, hlongest⟩ := h
    rw [← take_drop_append_left hlt hle] at hlast
    refine ⟨hlt, ?_, hlast, ?_⟩
    · rw [List.length_append]
      omega
    · intro w hw hpre
      exact hlongest w hw (hnone.prefix_drop hw (by omega) hpre)

/-- **Places in the second text.** A token is the longest there if it is so with the first text in
front of it. -/
theorem fits_shift : (tok.shift u.length).Fits words (u ++ v) ↔ tok.Fits words v := by
  have hdrop : ∀ pos, (u ++ v).drop (pos + u.length) = v.drop pos := by
    intro pos
    rw [Nat.add_comm, List.drop_length_add_append]
  cases tok with
  | literal pos c =>
    have hchar : (u ++ v)[pos + u.length]? = v[pos]? := by
      rw [List.getElem?_append_right (Nat.le_add_left _ _), Nat.add_sub_cancel]
    simp only [shift, Fits, hdrop, hchar]
  | word i start stop =>
    have hle : stop + u.length ≤ (u ++ v).length ↔ stop ≤ v.length := by
      rw [List.length_append]
      omega
    simp only [shift, Fits, hdrop, hle, Nat.add_sub_add_right, Nat.add_lt_add_iff_right]

end Token

namespace Trie

/-! ## Joined texts -/

/-- **Joined texts.** They are scanned as they are alone, if each token of the first is the longest
in the joined text, too. -/
theorem scan_append_of_fits (h : ∀ tok ∈ (build words).scan u, tok.Fits words (u ++ v)) :
    (build words).scan (u ++ v) =
      (build words).scan u ++ ((build words).scan v).map (Token.shift u.length) := by
  rw [scan_eq_iff]
  constructor
  · have hsecond := (tile_scan words v).shift u.length
    rw [Nat.zero_add, Nat.add_comm v.length] at hsecond
    rw [List.length_append]
    exact Token.tile_append (tile_scan words u) hsecond
  · intro tok htok
    rcases List.mem_append.1 htok with hfirst | hsecond
    · exact h tok hfirst
    · obtain ⟨tok', htok', rfl⟩ := List.mem_map.1 hsecond
      exact Token.fits_shift.2 (fits_of_mem_scan htok')

/-- The tokens of a joined text up to a boundary are those of the first text. -/
theorem scan_left_of_boundary (h : Token.Boundary ((build words).scan (u ++ v)) u.length) :
    (build words).scan u <+: (build words).scan (u ++ v) := by
  obtain ⟨first, last, heq, htile⟩ := h.exists_tile (tile_scan words (u ++ v))
  have hfits : ∀ tok ∈ first, tok.Fits words (u ++ v) := by
    intro tok htok
    apply fits_of_mem_scan
    rw [heq]
    exact List.mem_append_left last htok
  -- they lie end to end over the first text and are the longest there, so no others do
  have hfirst : (build words).scan u = first := by
    rw [scan_eq_iff]
    refine ⟨htile, ?_⟩
    intro tok htok
    exact (hfits tok htok).of_append (htile.stop_le hfits htok)
  rw [hfirst, heq]
  exact List.prefix_append first last

/-- **Joined texts and the seam.** If a token ends at the seam of two texts, or the first is empty,
they are scanned as they are alone, the second with its places moved on. A token ends there if no
word lies across the seam. -/
theorem scan_append (words : List (List Char)) (u v : List Char) :
    (Token.Boundary ((build words).scan (u ++ v)) u.length →
      (build words).scan (u ++ v) =
        (build words).scan u ++ ((build words).scan v).map (Token.shift u.length)) ∧
    (NoneAcross words u v →
      Token.Boundary ((build words).scan (u ++ v)) u.length ∧
      (build words).scan (u ++ v) =
        (build words).scan u ++ ((build words).scan v).map (Token.shift u.length)) := by
  constructor
  · intro hboundary
    apply scan_append_of_fits
    intro tok htok
    exact fits_of_mem_scan ((scan_left_of_boundary hboundary).subset htok)
  · intro hnone
    have heq : (build words).scan (u ++ v) =
        (build words).scan u ++ ((build words).scan v).map (Token.shift u.length) := by
      apply scan_append_of_fits
      intro tok htok
      exact (fits_of_mem_scan htok).append hnone
    refine ⟨?_, heq⟩
    by_cases hu : u.length = 0
    · exact .inl hu
    · obtain ⟨tok, htok, hstop⟩ := (tile_scan words u).exists_stop (Ne.symm hu)
      right
      refine ⟨tok, ?_, hstop⟩
      rw [heq]
      exact List.mem_append_left _ htok

/-- A longer word could begin at the end of the first text, but the second does not go on with it:
the seam is a boundary. There is none between the letters of a word. -/
theorem nested_scan_append :
    Token.Boundary ((build nested).scan ("aab".toList ++ "cab".toList)) 3 ∧
    (build nested).scan ("aab".toList ++ "cab".toList) =
      [.word 4 0 1, .word 2 1 3] ++ [.literal 3 'c', .word 2 4 6] ∧
    NoneAcross nested "aab".toList "cab".toList ∧
    ¬ Token.Boundary ((build nested).scan ("aa".toList ++ "bcab".toList)) 2 := by
  have hnone : NoneAcross nested "aab".toList "cab".toList := by decide
  have hfirst : (build nested).scan "aab".toList = [.word 4 0 1, .word 2 1 3] :=
    scan_eq_iff.2 (by decide)
  have hsecond : (build nested).scan "cab".toList = [.literal 0 'c', .word 2 1 3] :=
    scan_eq_iff.2 (by decide)
  have hbroken : (build nested).scan ("aa".toList ++ "bcab".toList) =
      [.word 4 0 1, .word 2 1 3, .literal 3 'c', .word 2 4 6] := scan_eq_iff.2 (by decide)
  have hboundary := ((scan_append nested "aab".toList "cab".toList).2 hnone).1
  refine ⟨hboundary, ?_, hnone, ?_⟩
  · rw [(scan_append nested "aab".toList "cab".toList).1 hboundary, hfirst, hsecond]
    rfl
  · rw [hbroken]
    simp [Token.Boundary, Token.stop]

end Trie

end Translit
