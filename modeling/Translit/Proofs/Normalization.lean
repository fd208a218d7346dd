import Translit.Proofs.Account
import Translit.Proofs.Unicode.Lowercase

/-!
# Normalized texts

A normalized text holds letters whose case matters and small letters only, so there is nothing more
to normalize in it. A conversion sees the normalized text alone: it does not tell a text from its
normalized form, nor from one that differs in the case of letters whose case does not matter.

* `Grammar.Settled`: a character that normalization leaves alone;
* `Grammar.SameLetter`: two characters that normalization does not tell apart;
* `normalize_normalize`: normalizing twice is normalizing once;
* `normalized_alike`: what a conversion does not see.
-/

namespace Translit

open Unicode (IsSmall lowercase isSmall_of_mem_lowercase)

namespace Grammar

/-- Normalization leaves the character alone: its case matters, or it is small. -/
def Settled (g : Grammar) (c : Char) : Prop := g.isCaseSensitive c = true ∨ IsSmall c

instance (g : Grammar) (c : Char) : Decidable (g.Settled c) := inferInstanceAs (Decidable (_ ∨ _))

/-- The characters are the same, or the case of neither matters and they have one lowercase form. -/
def SameLetter (g : Grammar) (a b : Char) : Prop :=
  a = b ∨ g.isCaseSensitive a = false ∧ g.isCaseSensitive b = false ∧ lowercase a = lowercase b

instance (g : Grammar) (a b : Char) : Decidable (g.SameLetter a b) :=
  inferInstanceAs (Decidable (_ ∨ _))

variable {g : Grammar} {c : Char} {text text' : List Char}

theorem normalize_cons (g : Grammar) (c : Char) (text : List Char) :
    g.normalize (c :: text) =
      (if g.isCaseSensitive c then [c] else lowercase c) ++ g.normalize text :=
  List.flatMap_cons

/-- **A normalized text is settled.** What a lowercase form holds is small, whether its case matters
or not. -/
theorem settled_of_mem_normalize (h : c ∈ g.normalize text) : g.Settled c := by
  obtain ⟨a, -, hc⟩ := List.mem_flatMap.1 h
  by_cases ha : g.isCaseSensitive a = true
  · rw [if_pos ha, List.mem_singleton] at hc
    exact .inl (hc ▸ ha)
  · rw [if_neg ha] at hc
    exact .inr (isSmall_of_mem_lowercase hc)

theorem normalize_eq_self (h : ∀ c ∈ text, g.Settled c) : g.normalize text = text := by
  induction text with
  | nil => rfl
  | cons c text ih =>
    have hc : (if g.isCaseSensitive c then [c] else lowercase c) = [c] := by
      rcases h c List.mem_cons_self with hcase | hsmall
      · rw [if_pos hcase]
      · rw [hsmall, ite_self]
    rw [normalize_cons, hc, ih fun c' hc' => h c' (List.mem_cons_of_mem c hc'),
      List.singleton_append]

theorem normalize_normalize (g : Grammar) (text : List Char) :
    g.normalize (g.normalize text) = g.normalize text :=
  normalize_eq_self fun _ => settled_of_mem_normalize

theorem normalize_congr (h : List.Forall₂ g.SameLetter text text') :
    g.normalize text = g.normalize text' := by
  induction h with
  | nil => rfl
  | @cons a b text text' hab _ ih =>
    rw [normalize_cons, normalize_cons, ih]
    rcases hab with rfl | ⟨ha, hb, hlower⟩
    · rfl
    · simp [ha, hb, hlower]

end Grammar

namespace Transliterator

/-- A conversion sees the normalized text alone. -/
theorem explain_congr {t : Transliterator} {text text' : List Char}
    (h : t.grammar.normalize text = t.grammar.normalize text') :
    t.explain text = t.explain text' := by
  rw [explain, explain, h]

theorem convert_congr {t : Transliterator} {text text' : List Char}
    (h : t.grammar.normalize text = t.grammar.normalize text') :
    t.convert text = t.convert text' := by
  rw [convert, convert, h]

/-- **What a conversion does not see.** A text is as good as its normalized form, which holds
nothing more to normalize, and as good as any text that differs from it in the case of letters only
whose case does not matter. -/
theorem normalized_alike (g : Grammar) (policy : Policy) (text : List Char) :
    g.normalize (g.normalize text) = g.normalize text ∧
    (ofGrammar g policy).explain (g.normalize text) = (ofGrammar g policy).explain text ∧
    (ofGrammar g policy).convert (g.normalize text) = (ofGrammar g policy).convert text ∧
    (∀ c ∈ g.normalize text, g.isCaseSensitive c = true ∨ lowercase c = [c]) ∧
    ∀ text', List.Forall₂ g.SameLetter text text' →
      (ofGrammar g policy).explain text = (ofGrammar g policy).explain text' ∧
        (ofGrammar g policy).convert text = (ofGrammar g policy).convert text' := by
  have hnormal := g.normalize_normalize text
  refine ⟨hnormal, explain_congr hnormal, convert_congr hnormal,
    fun _ => Grammar.settled_of_mem_normalize, fun text' h => ?_⟩
  have hsame := Grammar.normalize_congr h
  exact ⟨explain_congr hsame, convert_congr hsame⟩

/-- The grammar `overlapping` with a letter whose case matters. -/
def dotted : Grammar := { overlapping with caseSensitive := .ofText "i".toList }

/-- The Kelvin sign is as good as the letter k, and the dotted capital I, whose own case does not
matter, gives a letter whose case does. -/
theorem dotted_normalized_alike :
    List.Forall₂ dotted.SameLetter "\u0130\u212ahI".toList "\u0130KHI".toList ∧
    dotted.normalize "\u0130\u212ahI".toList = "i\u0307khI".toList ∧
    'i' ∈ dotted.normalize "\u0130\u212ahI".toList ∧
    (dotted.isCaseSensitive 'i' = true ∨ lowercase 'i' = ['i']) ∧
    (ofGrammar dotted .strict).convert "\u0130KHI".toList =
      (ofGrammar dotted .strict).convert "i\u0307khI".toList := by
  have hsame : List.Forall₂ dotted.SameLetter "\u0130\u212ahI".toList "\u0130KHI".toList := by
    decide +kernel
  have hnormal : dotted.normalize "\u0130\u212ahI".toList = "i\u0307khI".toList := by
    decide +kernel
  have hmem : 'i' ∈ dotted.normalize "\u0130\u212ahI".toList := by
    rw [hnormal]
    decide
  obtain ⟨-, -, hconvert, hsettled, hletters⟩ :=
    normalized_alike dotted .strict "\u0130\u212ahI".toList
  refine ⟨hsame, hnormal, hmem, hsettled 'i' hmem, ?_⟩
  rw [← (hletters _ hsame).2, ← hconvert, hnormal]

end Transliterator

end Translit
