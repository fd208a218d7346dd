import Mathlib.Tactic.Common
import Translit.Json.Printer
import Translit.Proofs.Json.Tokens

/-!
# Reading printed values back

What the printer writes is one of the spellings of a value, so it is read back.

* `isUnit_fourDigits`, `spelled_escapeChar`, `spelled_quoted?`: the spelling of a string;
* `written_printAt`: the spelling of a value at a depth;
* `Token.Numeric`, `written_print`: a printed document.
-/

namespace Translit.Json

/-! ## Strings -/

theorem isUnit_fourDigits {n : Nat} (h : n < 0x10000) : IsUnit n (fourDigits n) := by
  have htable : ∀ d < 16, IsHexDigit d (Nat.digitChar d) := by
    unfold IsHexDigit
    decide
  have hdigit : ∀ m, IsHexDigit (m % 16) (Nat.digitChar (m % 16)) :=
    fun m => htable _ (Nat.mod_lt m (by decide))
  have hfirst := hdigit (n / 4096)
  rw [Nat.mod_eq_of_lt (by omega : n / 4096 < 16)] at hfirst
  refine ⟨h, ?_⟩
  rw [fourDigits, Nat.mod_eq_of_lt (by omega : n / 4096 < 16)]
  exact .cons hfirst (.cons (hdigit _) (.cons (hdigit _) (.cons (hdigit _) .nil)))

/-- Every character is written as one of its spellings. -/
theorem spelled_escapeChar (c : Char) : (Piece.char c).Spelled (escapeChar c) := by
  unfold escapeChar
  split_ifs with hquote hbackslash hb hf hn hr ht hcontrol
  · exact .letter (by rw [hquote]; decide)
  · exact .letter (by rw [hbackslash]; decide)
  · exact .letter (by rw [hb]; decide)
  · exact .letter (by rw [hf]; decide)
  · exact .letter (by rw [hn]; decide)
  · exact .letter (by rw [hr]; decide)
  · exact .letter (by rw [ht]; decide)
  · have hsmall : c.toNat < 32 := hcontrol
    exact .unit (isUnit_fourDigits (by omega))
  · exact .plain hquote hbackslash (Char.not_lt.1 hcontrol)

theorem denote_chars (cs : List Char) : Piece.Denote (cs.map .char) cs := by
  induction cs with
  | nil => exact .nil
  | cons c cs ih => exact .char ih

theorem spelled_quoted (cs : List Char) : (Token.string (some cs)).Spelled (quoted cs) := by
  have hspelled : List.Forall₂ Piece.Spelled (cs.map .char) (cs.map escapeChar) := by
    rw [List.forall₂_map_left_iff, List.forall₂_map_right_iff, List.forall₂_same]
    exact fun c _ => spelled_escapeChar c
  exact .text hspelled (denote_chars cs)

theorem spelled_quoted? (text? : Option (List Char)) :
    (Token.string text?).Spelled (quoted? text?) := by
  cases text? with
  | some cs => exact spelled_quoted cs
  | none =>
    have hspelled : List.Forall₂ Piece.Spelled [.surrogate 0xD800]
        [['\\', 'u', 'd', '8', '0', '0']] :=
      .cons (.half (by decide) (by decide) (isUnit_fourDigits (n := 0xD800) (by decide))) .nil
    refine .noText hspelled fun cs h => ?_
    -- half a pair alone denotes no text
    have htext := h.text?
    cases htext

/-! ## Values -/

variable {t : Token} {ts : List Token} {space w cs : List Char}

theorem Token.Written.token (h : t.Spelled w) (tail : Token.Written ts cs) :
    Token.Written (t :: ts) (w ++ cs) :=
  have hspace : IsSpace [] := nofun
  .cons hspace h tail

theorem Token.Written.afterMark {c : Char} (h : t.mark? = some c) (tail : Token.Written ts cs) :
    Token.Written (t :: ts) (c :: cs) :=
  .token (.mark h) tail

theorem Token.Written.afterSpace (h : IsSpace space) (tail : Token.Written ts cs) :
    Token.Written ts (space ++ cs) := by
  have happend : ∀ {space' : List Char}, IsSpace space' → IsSpace (space ++ space') :=
    fun h' c hc => (List.mem_append.1 hc).elim (h c) (h' c)
  cases tail with
  | nil h' => exact .nil (happend h')
  | cons h' spelled tail =>
    rw [← List.append_assoc]
    exact .cons (happend h') spelled tail

theorem Token.Written.feed (h : Token.Written ts cs) : Token.Written ts (cs ++ ['\n']) := by
  induction h with
  | @nil space h =>
    refine .nil fun c hc => ?_
    obtain hc | hc := List.mem_append.1 hc
    · exact h c hc
    · rw [List.mem_singleton.1 hc]
      rfl
  | cons h spelled _ ih =>
    rw [List.append_assoc, List.append_assoc]
    exact .cons h spelled ih

/-- Words that spell the tokens, with nothing in between. -/
theorem Token.Written.ofWords {ws : List (List Char)} (h : List.Forall₂ Token.Spelled ts ws) :
    Token.Written ts ws.flatten := by
  induction h with
  | nil => exact .nil nofun
  | cons spelled _ ih => exact .token spelled ih

theorem isSpace_lineStart (depth : Nat) : IsSpace (lineStart depth) := by
  intro c hc
  obtain rfl | hc := List.mem_cons.1 hc
  · rfl
  · rw [List.eq_of_mem_replicate hc]
    rfl

theorem isSpace_blank : IsSpace [' '] := by
  intro c hc
  rw [List.mem_singleton.1 hc]
  rfl

/-- The numbers among the tokens are spelled as numbers. -/
def Token.Numeric (ts : List Token) : Prop := ∀ cs, .number cs ∈ ts → IsNumber cs

theorem Token.Numeric.mono {ts' : List Token} (h : Token.Numeric ts) (hsub : ts' ⊆ ts) :
    Token.Numeric ts' := fun cs hcs => h cs (hsub hcs)

mutual

/-- A printed value, in front of what is written after it. -/
theorem written_printAt (depth : Nat) (v : Value) {ts : List Token} {cs : List Char}
    (h : Token.Numeric v.tokens) (tail : Token.Written ts cs) :
    Token.Written (v.tokens ++ ts) (v.printAt depth ++ cs) :=
  match v with
  | .null => .token .null tail
  | .bool true => .token .true tail
  | .bool false => .token .false tail
  | .number w => .token (.number (h w List.mem_cons_self)) tail
  | .string text? => .token (spelled_quoted? text?) tail
  | .array [] => .afterMark rfl (.afterMark rfl tail)
  | .array (v :: vs) => by
    simp only [Value.tokens, Value.printAt, List.cons_append, List.append_assoc]
    exact .afterMark rfl (.afterSpace (isSpace_lineStart _)
      (written_printAt (depth + 1) v (h.mono fun _ ht => by simp [Value.tokens, ht])
        (written_printElements depth vs (h.mono fun _ ht => by simp [Value.tokens, ht]) tail)))
  | .object [] => .afterMark rfl (.afterMark rfl tail)
  | .object ((key, v) :: ms) => by
    simp only [Value.tokens, Value.printAt, List.cons_append, List.append_assoc]
    exact .afterMark rfl (.afterSpace (isSpace_lineStart _) (.token (spelled_quoted? key)
      (.afterMark rfl (.afterSpace isSpace_blank
        (written_printAt (depth + 1) v (h.mono fun _ ht => by simp [Value.tokens, ht])
          (written_printMembers depth ms (h.mono fun _ ht => by simp [Value.tokens, ht]) tail))))))

theorem written_printElements (depth : Nat) (vs : List Value) {ts : List Token} {cs : List Char}
    (h : Token.Numeric (elementTokens vs)) (tail : Token.Written ts cs) :
    Token.Written (elementTokens vs ++ ts) (printElements depth vs ++ cs) :=
  match vs with
  | [] => by
    simp only [elementTokens, printElements, List.append_assoc]
    exact .afterSpace (isSpace_lineStart _) (.afterMark rfl tail)
  | v :: vs => by
    simp only [elementTokens, printElements, List.cons_append, List.append_assoc]
    exact .afterMark rfl (.afterSpace (isSpace_lineStart _)
      (written_printAt (depth + 1) v (h.mono fun _ ht => by simp [elementTokens, ht])
        (written_printElements depth vs (h.mono fun _ ht => by simp [elementTokens, ht]) tail)))

theorem written_printMembers (depth : Nat) (ms : Members) {ts : List Token} {cs : List Char}
    (h : Token.Numeric (memberTokens ms)) (tail : Token.Written ts cs) :
    Token.Written (memberTokens ms ++ ts) (printMembers depth ms ++ cs) :=
  match ms with
  | [] => by
    simp only [memberTokens, printMembers, List.append_assoc]
    exact .afterSpace (isSpace_lineStart _) (.afterMark rfl tail)
  | (key, v) :: ms => by
    simp only [memberTokens, printMembers, List.cons_append, List.append_assoc]
    exact .afterMark rfl (.afterSpace (isSpace_lineStart _) (.token (spelled_quoted? key)
      (.afterMark rfl (.afterSpace isSpace_blank
        (written_printAt (depth + 1) v (h.mono fun _ ht => by simp [memberTokens, ht])
          (written_printMembers depth ms (h.mono fun _ ht => by simp [memberTokens, ht]) tail))))))

end

theorem numeric_elementTokens {vs : List Value} (h : ∀ v ∈ vs, Token.Numeric v.tokens) :
    Token.Numeric (elementTokens vs) := by
  induction vs with
  | nil =>
    intro cs hcs
    simp [elementTokens] at hcs
  | cons v vs ih =>
    intro cs hcs
    obtain hv | hvs : .number cs ∈ v.tokens ∨ .number cs ∈ elementTokens vs := by
      simpa [elementTokens] using hcs
    · exact h v List.mem_cons_self cs hv
    · exact ih (fun w hw => h w (List.mem_cons_of_mem _ hw)) cs hvs

theorem numeric_array {vs : List Value} (h : ∀ v ∈ vs, Token.Numeric v.tokens) :
    Token.Numeric (Value.array vs).tokens := by
  intro cs hcs
  cases vs with
  | nil => simp [Value.tokens] at hcs
  | cons v vs => exact numeric_elementTokens h cs (by simpa [Value.tokens, elementTokens] using hcs)

theorem numeric_memberTokens {ms : Members} (h : ∀ m ∈ ms, Token.Numeric m.2.tokens) :
    Token.Numeric (memberTokens ms) := by
  induction ms with
  | nil =>
    intro cs hcs
    simp [memberTokens] at hcs
  | cons m ms ih =>
    obtain ⟨key, v⟩ := m
    intro cs hcs
    obtain hv | hms : .number cs ∈ v.tokens ∨ .number cs ∈ memberTokens ms := by
      simpa [memberTokens] using hcs
    · exact h (key, v) List.mem_cons_self cs hv
    · exact ih (fun m hm => h m (List.mem_cons_of_mem _ hm)) cs hms

theorem numeric_object {ms : Members} (h : ∀ m ∈ ms, Token.Numeric m.2.tokens) :
    Token.Numeric (Value.object ms).tokens := by
  intro cs hcs
  cases ms with
  | nil => simp [Value.tokens] at hcs
  | cons m ms => exact numeric_memberTokens h cs (by simpa [Value.tokens, memberTokens] using hcs)

/-- What is printed is a spelling of the value. -/
theorem written_print {v : Value} (h : Token.Numeric v.tokens) : v.Written v.print := by
  have hspace : IsSpace [] := nofun
  have hwritten := written_printAt 0 v h (.nil hspace)
  rwa [List.append_nil, List.append_nil] at hwritten

end Translit.Json
