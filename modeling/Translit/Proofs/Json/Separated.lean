import Translit.Proofs.Json.Records

/-!
# Spelling arrays and objects piece by piece

The tokens of an array or an object are those of what is in it, with commas in between and a mark
at each end. So a text of it can be put together from texts of the pieces.

* `Token.SpelledBy`: a text of tokens, in front of whatever is written after it;
* `Value.tokens_array`, `Value.tokens_object`: the pieces of a value, with commas in between;
* `Token.SpelledBy.separated`, `Token.SpelledBy.enclosed`: a text of them with white space;
* `Held`, `held_array`: the text of a value that holds a content;
* `MembersSpelled`, `MembersSpelled.exists_spelled`: the text of a record as an object, in which
  fields without content are left out.
-/

namespace Translit.Json

variable {t t' : Token} {ts ts' : List Token} {tss : List (List Token)} {v : Value}
  {c c' : Char} {w w' front gap back cs : List Char} {ws : List (List Char)}

instance (cs : List Char) : Decidable (IsSpace cs) :=
  decidable_of_iff (cs.all isBlank = true) List.all_eq_true

/-! ## Texts of tokens -/

/-- The text spells the tokens, whatever is written after it. -/
structure Token.SpelledBy (ts : List Token) (w : List Char) : Prop where
  before : ∀ {rest : List Token} {cs : List Char},
    Token.Written rest cs → Token.Written (ts ++ rest) (w ++ cs)

namespace Token.SpelledBy

theorem space (h : IsSpace gap) : SpelledBy [] gap := ⟨fun tail => .afterSpace h tail⟩

theorem mark (h : t.mark? = some c) : SpelledBy [t] [c] := ⟨fun tail => .afterMark h tail⟩

theorem text (cs : List Char) : SpelledBy (Value.text cs).tokens (quoted cs) :=
  ⟨fun tail => .token (spelled_quoted cs) tail⟩

theorem append (h : SpelledBy ts w) (h' : SpelledBy ts' w') : SpelledBy (ts ++ ts') (w ++ w') := by
  constructor
  intro rest cs tail
  rw [List.append_assoc, List.append_assoc]
  exact h.before (h'.before tail)

/-- The value, if nothing but white space is written after it. -/
theorem written (h : SpelledBy v.tokens w) (hspace : IsSpace cs) : v.Written (w ++ cs) := by
  have hwritten := h.before (.nil hspace)
  rwa [List.append_nil] at hwritten

/-- Pieces with a comma and white space in between. -/
theorem separated (hgap : IsSpace gap) (h : List.Forall₂ SpelledBy tss ws) :
    SpelledBy ([.comma].intercalate tss) ((',' :: gap).intercalate ws) := by
  have hcomma : SpelledBy [.comma] (',' :: gap) := (mark rfl).append (.space hgap)
  induction h with
  | nil => exact ⟨id⟩
  | cons hfirst hrest ih =>
    cases hrest with
    | nil =>
      rw [List.intercalate_singleton, List.intercalate_singleton]
      exact hfirst
    | cons =>
      rw [List.intercalate_cons_cons, List.intercalate_cons_cons, List.append_assoc,
        List.append_assoc]
      exact hfirst.append (hcomma.append ih)

/-- Pieces between two marks, with commas and white space. -/
theorem enclosed (hopen : t.mark? = some c) (hclose : t'.mark? = some c') (hfront : IsSpace front)
    (hgap : IsSpace gap) (hback : IsSpace back) (h : List.Forall₂ SpelledBy tss ws) :
    SpelledBy (t :: ([.comma].intercalate tss ++ [t']))
      (c :: front ++ (',' :: gap).intercalate ws ++ (back ++ [c'])) := by
  have hbegin : SpelledBy [t] (c :: front) := (mark hopen).append (.space hfront)
  have hend : SpelledBy [t'] (back ++ [c']) := (SpelledBy.space hback).append (mark hclose)
  rw [List.append_assoc]
  exact hbegin.append ((separated hgap h).append hend)

end Token.SpelledBy

/-! ## The pieces of arrays and objects -/

theorem append_comma_intercalate (p p' : List Token) (ps : List (List Token)) (rest : List Token) :
    p ++ .comma :: ([.comma].intercalate (p' :: ps) ++ rest) =
      [.comma].intercalate (p :: p' :: ps) ++ rest := by
  rw [List.intercalate_cons_cons]
  simp only [List.append_assoc, List.cons_append, List.nil_append]

theorem tokens_append_elementTokens (v : Value) (vs : List Value) :
    v.tokens ++ elementTokens vs =
      [.comma].intercalate ((v :: vs).map Value.tokens) ++ [.closeArray] := by
  induction vs generalizing v with
  | nil => simp [elementTokens]
  | cons v' vs ih =>
    rw [elementTokens, ih]
    exact append_comma_intercalate _ _ _ _

theorem Value.tokens_array (vs : List Value) : (Value.array vs).tokens =
    .openArray :: ([.comma].intercalate (vs.map Value.tokens) ++ [.closeArray]) := by
  cases vs with
  | nil => rfl
  | cons v vs => rw [Value.tokens, tokens_append_elementTokens]

/-- The tokens of a member. -/
def memberPiece (m : Option (List Char) × Value) : List Token :=
  .string m.1 :: .colon :: m.2.tokens

theorem memberPiece_append_memberTokens (m : Option (List Char) × Value) (ms : Members) :
    memberPiece m ++ memberTokens ms =
      [.comma].intercalate ((m :: ms).map memberPiece) ++ [.closeObject] := by
  induction ms generalizing m with
  | nil => simp [memberTokens]
  | cons m' ms ih =>
    have hcons : memberTokens (m' :: ms) = .comma :: (memberPiece m' ++ memberTokens ms) := rfl
    rw [hcons, ih]
    exact append_comma_intercalate _ _ _ _

theorem Value.tokens_object (ms : Members) : (Value.object ms).tokens =
    .openObject :: ([.comma].intercalate (ms.map memberPiece) ++ [.closeObject]) := by
  cases ms with
  | nil => rfl
  | cons m ms => exact congrArg (.openObject :: ·) (memberPiece_append_memberTokens m ms)

/-! ## Contents -/

section Contents

variable {α : Type} {R : α → Value → Prop} {names : List (List Char)}
  {fields : List (Option Value)}

/-- The text spells a value that holds the content. -/
def Held (R : α → Value → Prop) (x : α) (w : List Char) : Prop :=
  ∃ v, R x v ∧ Token.SpelledBy v.tokens w

theorem held_text (cs : List Char) : Held IsText cs (quoted cs) := ⟨_, rfl, .text cs⟩

theorem held_array {xs : List α} (front gap back : List Char) (hfront : IsSpace front)
    (hgap : IsSpace gap) (hback : IsSpace back) (h : List.Forall₂ (Held R) xs ws) :
    Held (IsArray R) xs ('[' :: front ++ (',' :: gap).intercalate ws ++ (back ++ [']'])) := by
  obtain ⟨vs, hheld, hspelled⟩ : ∃ vs, List.Forall₂ R xs vs ∧
      List.Forall₂ Token.SpelledBy (vs.map Value.tokens) ws := by
    induction h with
    | nil => exact ⟨[], .nil, .nil⟩
    | cons hx _ ih =>
      obtain ⟨v, hheld, hspelled⟩ := hx
      obtain ⟨vs, hrest, hrestSpelled⟩ := ih
      exact ⟨v :: vs, .cons hheld hrest, .cons hspelled hrestSpelled⟩
  refine ⟨.array vs, ⟨vs, rfl, hheld⟩, ?_⟩
  rw [Value.tokens_array]
  exact .enclosed rfl rfl hfront hgap hback hspelled

/-! ### Records -/

/-- The texts spell the members that give the fields to the names. -/
def MembersSpelled (names : List (List Char)) (fields : List (Option Value))
    (ws : List (List Char)) : Prop :=
  List.Forall₂ Token.SpelledBy
    ((given names fields).map fun m => memberPiece (some m.1, m.2)) ws

namespace MembersSpelled

theorem nil : MembersSpelled [] [] [] := List.Forall₂.nil

/-- A field with a content makes a member. -/
theorem cons (name : List Char) (h : Token.SpelledBy v.tokens w)
    (rest : MembersSpelled names fields ws) :
    MembersSpelled (name :: names) (some v :: fields)
      ((quoted name ++ ": ".toList ++ w) :: ws) := by
  have hcolon : Token.SpelledBy [.colon] ": ".toList :=
    (Token.SpelledBy.mark rfl).append (.space isSpace_blank)
  exact List.Forall₂.cons (((Token.SpelledBy.text name).append hcolon).append h) rest

/-- A field with an optional content makes a member if there is one. -/
theorem optional {text : α → List Char} (h : ∀ x, Held R x (text x)) (name : List Char)
    (x? : Option α) :
    ∃ field, OptionalField R x? field ∧
      ∀ {names : List (List Char)} {fields : List (Option Value)} {ws : List (List Char)},
        MembersSpelled names fields ws → MembersSpelled (name :: names) (field :: fields)
          ((x?.map fun x => quoted name ++ ": ".toList ++ text x).toList ++ ws) := by
  cases x? with
  | none => exact ⟨none, .omitted, id⟩
  | some x =>
    obtain ⟨v, hheld, hspelled⟩ := h x
    exact ⟨some v, .held hheld, cons name hspelled⟩

/-- A record is spelled as an object of the members that give its fields. -/
theorem exists_spelled (h : MembersSpelled names fields ws) (front gap back : List Char)
    (hfront : IsSpace front) (hgap : IsSpace gap) (hback : IsSpace back) :
    ∃ v : Value, v.Gives names fields ∧ Token.SpelledBy v.tokens
      ('\x7b' :: front ++ (',' :: gap).intercalate ws ++ (back ++ ['\x7d'])) := by
  refine ⟨_, .given names fields, ?_⟩
  rw [Value.tokens_object, List.map_map]
  exact .enclosed rfl rfl hfront hgap hback h

end MembersSpelled

end Contents

end Translit.Json
