import Mathlib.Data.Bool.AllAny
import Mathlib.Tactic.IntervalCases
import Translit.Proofs.Json.Spelling

/-!
# Reading tokens back

The reader of tokens finds them in everything that may be written, one after the other.

* `Lexer.Reads`: what the reader makes of a piece of a document;
* `Lexer.reads_string`, `Lexer.reads_number`, `Lexer.reads_token`: what it makes of a token;
* `Lexer.run?_number`: a number ends where something else begins;
* `ofChars?_of_written`: the tokens of a document.
-/

namespace Translit.Json

/-! ## What the reader makes of a piece of a document -/

/-- The reader goes from one state to another over the characters, and completes the tokens. -/
inductive Lexer.Reads : Lexer → List Char → List Token → Lexer → Prop
  | done {s : Lexer} : Reads s [] [] s
  | step {s s' s'' : Lexer} {c : Char} {cs : List Char} {ts ts' : List Token}
      (first : s.step (some c) = some (ts, s')) (tail : Reads s' cs ts' s'') :
      Reads s (c :: cs) (ts ++ ts') s''

namespace Lexer

variable {s s' s'' : Lexer} {c : Char} {cs cs' ds w : List Char} {ts ts' : List Token}
  {rest : List (Option Char)} {read : List Piece} {n : Nat}

theorem Reads.single (h : s.step (some c) = some (ts, s')) : Reads s [c] ts s' := by
  have := Reads.step h .done
  rwa [List.append_nil] at this

theorem Reads.silent (h : s.step (some c) = some ([], s')) (tail : Reads s' cs ts s'') :
    Reads s (c :: cs) ts s'' :=
  Reads.step h tail

theorem Reads.trans (h : Reads s cs ts s') (h' : Reads s' cs' ts' s'') :
    Reads s (cs ++ cs') (ts ++ ts') s'' := by
  induction h with
  | done => exact h'
  | step first _ ih =>
    rw [List.append_assoc]
    exact .step first (ih h')

/-- The tokens of a document that begins with the characters. -/
theorem Reads.run? (h : Reads s cs ts s') (rest : List (Option Char)) :
    s.run? (cs.map some ++ rest) = (s'.run? rest).map (ts ++ ·) := by
  induction h with
  | done => simp
  | @step s s' s'' c cs ts ts' first _ ih =>
    rw [List.map_cons, List.cons_append, Lexer.run?, first]
    simp only [Option.bind_eq_bind, Option.bind_some]
    rw [ih]
    cases s''.run? rest <;> simp

/-! ### Strings -/

theorem hexDigit?_of_isHexDigit (h : IsHexDigit n c) : hexDigit? c = some n := by
  have htable : ∀ p ∈ hexDigits, hexDigit? p.2 = some p.1 := by decide
  exact htable (n, c) h

theorem reads_hex (h : IsUnit n ds) (read : List Piece) :
    Reads (.hex 3 0 read) ds [] (.string (Piece.ofUnit n :: read)) := by
  obtain ⟨hn, hds⟩ := h
  rcases hds with _ | ⟨ha, _ | ⟨hb, _ | ⟨hc, _ | ⟨hd, _ | _⟩⟩⟩⟩
  have ha := hexDigit?_of_isHexDigit ha
  have hb := hexDigit?_of_isHexDigit hb
  have hc := hexDigit?_of_isHexDigit hc
  have hd := hexDigit?_of_isHexDigit hd
  have hvalue :
      (((0 * 16 + n / 4096) * 16 + n / 256 % 16) * 16 + n / 16 % 16) * 16 + n % 16 = n := by
    omega
  refine .silent (by rw [Lexer.step, ha]; rfl) (.silent (by rw [Lexer.step, hb]; rfl)
    (.silent (by rw [Lexer.step, hc]; rfl) (.single ?_)))
  rw [Lexer.step, hd]
  simp only [Option.bind_eq_bind, Option.bind_some, hvalue]

theorem reads_piece {p : Piece} (h : p.Spelled w) (read : List Piece) :
    Reads (.string read) w [] (.string (p :: read)) := by
  have hescape : (Lexer.string read).step (some '\\') = some ([], .escape read) := rfl
  have hunit : (Lexer.escape read).step (some 'u') = some ([], .hex 3 0 read) := rfl
  cases h with
  | @plain c hquote hbackslash hcontrol =>
    refine .single ?_
    rw [Lexer.step, if_neg hquote, if_neg hbackslash, if_neg (Char.not_lt.2 hcontrol)]
  | @letter l c h =>
    have htable : ∀ p ∈ escapeLetters, p.1 ≠ 'u' ∧ shortEscape? p.1 = some p.2 := by decide
    obtain ⟨hne, hletter⟩ := htable (l, c) h
    refine .silent hescape (.single ?_)
    rw [Lexer.step, if_neg hne, hletter]
    rfl
  | @unit c ds h =>
    have hchar : Piece.ofUnit c.toNat = .char c := by
      have hvalid : c.toNat < 0xD800 ∨ 0xDFFF < c.toNat ∧ c.toNat < 0x110000 := c.valid
      rw [Piece.ofUnit, if_neg (by omega), Char.ofNat_toNat]
    have hhex := reads_hex h read
    rw [hchar] at hhex
    exact .silent hescape (.silent hunit hhex)
  | half hlow hhigh h =>
    have hhex := reads_hex h read
    rw [Piece.ofUnit, if_pos ⟨hlow, hhigh⟩] at hhex
    exact .silent hescape (.silent hunit hhex)

theorem reads_pieces {ps : List Piece} {ws : List (List Char)}
    (h : List.Forall₂ Piece.Spelled ps ws) (read : List Piece) :
    Reads (.string read) ws.flatten [] (.string (ps.reverse ++ read)) := by
  induction h generalizing read with
  | nil => exact .done
  | @cons p w ps ws hp _ ih =>
    rw [List.flatten_cons, List.reverse_cons, List.append_assoc]
    exact (reads_piece hp read).trans (ih (p :: read))

theorem reads_string {ps : List Piece} {ws : List (List Char)}
    (h : List.Forall₂ Piece.Spelled ps ws) :
    Reads .between ('"' :: (ws.flatten ++ ['"'])) [.string (Piece.text? ps)] .between := by
  refine .silent rfl ((reads_pieces h []).trans (.single ?_))
  rw [Lexer.step, if_pos rfl, List.append_nil, List.reverse_reverse]

end Lexer

/-! ### Numbers -/

section Numbers

variable {part start : NumberPart} {c : Char} {cs ds read : List Char}

/-- Digits leave the reader in a part in which each of them does. -/
theorem next?_loop (hloop : ∀ d : Char, d.isDigit = true → part.next? d = some part)
    (hdigits : ∀ d ∈ ds, d.isDigit = true) : ds.foldlM NumberPart.next? part = some part := by
  induction ds with
  | nil => rfl
  | cons d ds ih =>
    rw [List.foldlM_cons, hloop d (hdigits d List.mem_cons_self)]
    exact ih fun x hx => hdigits x (List.mem_cons_of_mem _ hx)

theorem next?_digits (hstep : ∀ d : Char, d.isDigit = true → start.next? d = some part)
    (hloop : ∀ d : Char, d.isDigit = true → part.next? d = some part) (h : IsDigits ds) :
    ds.foldlM NumberPart.next? start = some part := by
  obtain ⟨hne, hdigits⟩ := h
  cases ds with
  | nil => exact absurd rfl hne
  | cons d ds =>
    rw [List.foldlM_cons, hstep d (hdigits d List.mem_cons_self)]
    exact next?_loop hloop fun x hx => hdigits x (List.mem_cons_of_mem _ hx)

theorem next?_whole {d : Char} (h : d.isDigit = true) :
    NumberPart.next? .whole d = some .whole := if_pos h

theorem next?_fraction {d : Char} (h : d.isDigit = true) :
    NumberPart.next? .fraction d = some .fraction := if_pos h

theorem next?_exponent {d : Char} (h : d.isDigit = true) :
    NumberPart.next? .exponent d = some .exponent := if_pos h

theorem mem_of_isDigit {d : Char} (h : d.isDigit = true) (hne : d ≠ '0') :
    d ∈ "123456789".toList := by
  have hbounds : 48 ≤ d.toNat ∧ d.toNat ≤ 57 := by
    simpa [Char.isDigit, UInt32.le_iff_toNat_le] using h
  obtain ⟨hleast, hmost⟩ := hbounds
  rw [← Char.ofNat_toNat d] at hne ⊢
  generalize d.toNat = n at *
  interval_cases n
  · exact absurd rfl hne
  all_goals decide

/-- The whole part begins a number, or follows its sign. -/
theorem begin?_whole (h : IsWhole cs) : ∃ first rest start part, cs = first :: rest ∧
    Lexer.begin? first = some ([], .number start [first]) ∧
    NumberPart.next? .minus first = some start ∧
    rest.foldlM NumberPart.next? start = some part ∧ part ∈ [.zero, .whole] := by
  obtain rfl | ⟨⟨hne, hdigits⟩, hzero⟩ := h
  · exact ⟨'0', [], .zero, .zero, rfl, rfl, rfl, rfl, by decide⟩
  · cases cs with
    | nil => exact absurd rfl hne
    | cons d ds =>
      have hd : d.isDigit = true := hdigits d List.mem_cons_self
      have hds : ds.foldlM NumberPart.next? .whole = some .whole :=
        next?_loop (fun _ => next?_whole) fun x hx => hdigits x (List.mem_cons_of_mem _ hx)
      have hne : d ≠ '0' := fun h => hzero (by rw [h]; rfl)
      refine ⟨d, ds, .whole, .whole, rfl, ?_, ?_, hds, by decide⟩
      · have htable : ∀ d ∈ "123456789".toList,
            Lexer.begin? d = some ([], .number .whole [d]) :=
          List.all_iff_forall_prop.1 (by decide)
        exact htable d (mem_of_isDigit hd hne)
      · rw [NumberPart.next?, if_neg hne, if_pos hd]

theorem next?_fractionPart (h : IsFraction cs) (hstart : start ∈ [.zero, .whole]) :
    ∃ part, cs.foldlM NumberPart.next? start = some part ∧
      part ∈ [.zero, .whole, .fraction] := by
  obtain rfl | ⟨ds, rfl, hds⟩ := h
  · exact ⟨start, rfl, by revert start; decide⟩
  · have hpoint : start.next? '.' = some .point := by revert start; decide
    refine ⟨.fraction, ?_, by decide⟩
    rw [List.foldlM_cons, hpoint]
    exact next?_digits (fun _ hd => if_pos hd) (fun _ => next?_fraction) hds

theorem next?_exponentPart (h : IsExponent cs) (hstart : start ∈ [.zero, .whole, .fraction]) :
    ∃ part, cs.foldlM NumberPart.next? start = some part ∧ part.complete = true := by
  obtain rfl | ⟨mark, sign, ds, rfl, hmark, hsign, hds⟩ := h
  · exact ⟨start, rfl, by revert start; decide⟩
  · have htable : ∀ mark ∈ ['e', 'E'],
        ∀ start ∈ [.zero, .whole, .fraction], NumberPart.next? start mark = some .exponentMark :=
      List.all_iff_forall_prop.1 (by decide)
    have hmark : start.next? mark = some .exponentMark := htable mark hmark start hstart
    refine ⟨.exponent, ?_, rfl⟩
    have hdigits : ds.foldlM NumberPart.next? .exponentMark = some .exponent :=
      next?_digits (fun _ hd => if_pos hd) (fun _ => next?_exponent) hds
    have hsigned : ds.foldlM NumberPart.next? .exponentSign = some .exponent :=
      next?_digits (fun _ hd => if_pos hd) (fun _ => next?_exponent) hds
    rw [List.foldlM_cons, hmark]
    simp only [List.mem_cons, List.not_mem_nil, or_false] at hsign
    obtain rfl | rfl | rfl := hsign
    · exact hdigits
    · exact hsigned
    · exact hsigned

namespace Lexer

theorem reads_parts (h : cs.foldlM NumberPart.next? start = some part) (read : List Char) :
    Reads (.number start read) cs [] (.number part (cs.reverse ++ read)) := by
  induction cs generalizing start read with
  | nil =>
    cases h
    exact .done
  | cons c cs ih =>
    rw [List.foldlM_cons] at h
    cases hnext : start.next? c with
    | none =>
      rw [hnext] at h
      cases h
    | some next =>
      rw [hnext] at h
      rw [List.reverse_cons, List.append_assoc]
      exact .silent (by rw [Lexer.step, hnext]) (ih h (c :: read))

theorem reads_number (h : IsNumber cs) :
    ∃ part : NumberPart, part.complete = true ∧ Reads .between cs [] (.number part cs.reverse) := by
  obtain ⟨sign, whole, fraction, exponent, rfl, hsign, hwhole, hfraction, hexponent⟩ := h
  obtain ⟨first, rest, start, p, rfl, hbegin, hminus, hrest, hp⟩ := begin?_whole hwhole
  obtain ⟨q, hfraction, hq⟩ := next?_fractionPart hfraction hp
  obtain ⟨part, hexponent, hcomplete⟩ := next?_exponentPart hexponent hq
  have hparts : (rest ++ (fraction ++ exponent)).foldlM NumberPart.next? start = some part := by
    simp only [List.foldlM_append, hrest, hfraction, hexponent, Option.bind_eq_bind,
      Option.bind_some]
  refine ⟨part, hcomplete, ?_⟩
  -- without a sign the whole part begins the number, with one it goes on from the sign
  simp only [List.mem_cons, List.not_mem_nil, or_false] at hsign
  obtain rfl | rfl := hsign
  · rw [List.nil_append, List.cons_append, List.reverse_cons]
    exact .silent hbegin (reads_parts hparts [first])
  · have hsigned : (first :: (rest ++ (fraction ++ exponent))).foldlM NumberPart.next? .minus =
        some part := by
      rw [List.foldlM_cons, hminus]
      exact hparts
    rw [List.cons_append, List.cons_append, List.nil_append, List.reverse_cons]
    exact .silent rfl (reads_parts hsigned ['-'])

/-- A number ends before the end of a document, white space and marks. -/
def Ends (cs : List Char) : Prop :=
  ∀ c ∈ cs.head?, isBlank c = true ∨ ∃ t : Token, t.mark? = some c

theorem Ends.afterSpace {space : List Char} (hspace : IsSpace space) (h : Ends cs) :
    Ends (space ++ cs) := by
  cases space with
  | nil => exact h
  | cons c space =>
    rintro d ⟨⟩
    exact .inl (hspace c List.mem_cons_self)

theorem next?_of_ends (h : Ends (c :: cs)) (hcomplete : part.complete = true) :
    part.next? c = none := by
  have htable : ∀ c ∈ " \t\n\r\x7b\x7d[]:,".toList,
      ∀ part ∈ [NumberPart.zero, .whole, .fraction, .exponent], part.next? c = none :=
    List.all_iff_forall_prop.1 (by decide)
  refine htable c ?_ part (by revert hcomplete; cases part <;> decide)
  obtain hblank | ⟨t, ht⟩ := h c rfl
  · simp only [isBlank, Bool.or_eq_true, beq_iff_eq] at hblank
    obtain ((rfl | rfl) | rfl) | rfl := hblank <;> decide
  · cases t <;> cases ht <;> decide

theorem run?_number (hcomplete : part.complete = true) (h : Ends cs) :
    (Lexer.number part read).run? (cs.map some) =
      (Lexer.between.run? (cs.map some)).map (.number read.reverse :: ·) := by
  cases cs with
  | nil =>
    simp only [List.map_nil, Lexer.run?, Lexer.finish?, hcomplete]
    rfl
  | cons c cs =>
    simp only [List.map_cons, Lexer.run?, Lexer.step, next?_of_ends h hcomplete, hcomplete,
      if_true]
    cases begin? c with
    | none => rfl
    | some r =>
      simp only [Option.bind_eq_bind, Option.bind_some]
      cases r.2.run? (cs.map some) <;> rfl

/-! ### Tokens -/

theorem reads_token {t : Token} (h : t.Spelled cs) (hnumber : ∀ w, t ≠ .number w) :
    Reads .between cs [t] .between := by
  cases h with
  | mark h => cases t <;> cases h <;> exact .single rfl
  | null => exact .silent rfl (.silent rfl (.silent rfl (.single rfl)))
  | true => exact .silent rfl (.silent rfl (.silent rfl (.single rfl)))
  | false => exact .silent rfl (.silent rfl (.silent rfl (.silent rfl (.single rfl))))
  | number => exact absurd rfl (hnumber _)
  | text hspelled hdenote =>
    rw [← hdenote.text?]
    exact reads_string hspelled
  | @noText ps ws hspelled hdenote =>
    have htext : Piece.text? ps = none :=
      Option.eq_none_iff_forall_not_mem.2 fun cs h =>
        hdenote cs (Piece.denote_of_text? hspelled h)
    rw [← htext]
    exact reads_string hspelled

theorem reads_space (h : IsSpace cs) : Reads .between cs [] .between := by
  induction cs with
  | nil => exact .done
  | cons c cs ih =>
    have hblank : begin? c = some ([], .between) := if_pos (h c List.mem_cons_self)
    exact .silent hblank (ih fun d hd => h d (List.mem_cons_of_mem _ hd))

end Lexer

end Numbers

/-- What follows a number that does not run on. -/
theorem Token.Written.ends {ts : List Token} {cs : List Char} (h : Token.Written ts cs)
    (hmark : ∀ next ∈ ts.head?, next.mark?.isSome) : Lexer.Ends cs := by
  cases h with
  | nil h =>
    rw [← List.append_nil cs]
    exact .afterSpace h nofun
  | @cons t ts space w cs h hspelled htail =>
    refine .afterSpace h ?_
    have hsome := hmark t rfl
    cases hspelled with
    | mark h =>
      rintro d ⟨⟩
      exact .inr ⟨t, h⟩
    | _ => cases hsome

/-- Tokens that are written are read, whatever spellings and white space are chosen. -/
theorem ofChars?_of_written {ts : List Token} {cs : List Char} (h : Token.Written ts cs)
    (hdelimited : Token.Delimited ts) : Token.ofChars? (cs.map some) = some ts := by
  unfold Token.ofChars?
  induction h with
  | @nil space hspace =>
    rw [← List.append_nil (space.map some), (Lexer.reads_space hspace).run?]
    rfl
  | @cons t ts space w cs hspace hspelled htail ih =>
    obtain ⟨hmark, hdelimited⟩ := hdelimited
    have hrest := ih hdelimited
    rw [List.map_append, (Lexer.reads_space hspace).run?, List.map_append]
    -- a number is complete only with the character after it, every other token with its last
    by_cases hnumber : ∃ w, t = .number w
    · obtain ⟨w', rfl⟩ := hnumber
      have hw : IsNumber w ∧ w' = w := by
        cases hspelled with
        | mark h => cases h
        | number h => exact ⟨h, rfl⟩
      obtain ⟨hw, rfl⟩ := hw
      obtain ⟨part, hcomplete, hreads⟩ := Lexer.reads_number hw
      rw [hreads.run?, Lexer.run?_number hcomplete (htail.ends (hmark _ rfl)), hrest,
        List.reverse_reverse]
      rfl
    · rw [(Lexer.reads_token hspelled fun w h => hnumber ⟨w, h⟩).run?, hrest]
      rfl

end Translit.Json
