import Translit.Grammar.Layout
import Translit.Proofs.Grammar.Rendering
import Translit.Proofs.Json.Separated

/-!
# Reading a laid out document back

However a document is laid out for people to read, it stays the same document: its layout is one of
the texts in which it is written down.

* `ConditionEntry.held_layout`, `RuleEntry.held_layout`, `PatternEntry.held_layout`: the entries;
* `Document.exists_written_layout`, `ofBytes?_layout`: a document is read in its layout;
* `isRendering_layout`, `decode_layout`: so is the grammar that it describes, the embedded one among
  others.
-/

namespace Translit.Grammar

open Json

variable {d : Document} {ps : List Pattern}

/-- A record on one line. -/
theorem exists_spelled_inlineObject {names : List (List Char)} {fields : List (Option Value)}
    {members : List (List Char)} (h : MembersSpelled names fields members) :
    ∃ v : Value, v.Gives names fields ∧ Token.SpelledBy v.tokens (inlineObject members) := by
  have hempty : IsSpace [] := nofun
  exact h.exists_spelled [] [' '] [] hempty isSpace_blank hempty

/-! ## Entries -/

theorem ConditionEntry.held_layout (e : ConditionEntry) :
    Held ConditionEntry.WrittenAs e e.layout := by
  obtain ⟨scope, hscope, hscopeMember⟩ := MembersSpelled.optional held_text "scope".toList e.scope?
  obtain ⟨value, hvalue, hvalueMember⟩ := MembersSpelled.optional held_text "value".toList e.value?
  have hmembers := MembersSpelled.cons "type".toList (Token.SpelledBy.text e.kind)
    (hscopeMember (hvalueMember .nil))
  rw [List.append_nil] at hmembers
  obtain ⟨v, hgives, hspelled⟩ := exists_spelled_inlineObject hmembers
  exact ⟨v, ⟨scope, value, hgives, hscope, hvalue⟩, hspelled⟩

theorem RuleEntry.held_layout (spread : Bool) (e : RuleEntry) :
    Held RuleEntry.WrittenAs e (e.layout spread) := by
  have hentries : List.Forall₂ (Held ConditionEntry.WrittenAs) e.conditions
      (e.conditions.map ConditionEntry.layout) := by
    rw [List.forall₂_map_right_iff, List.forall₂_same]
    exact fun c _ => c.held_layout
  have hbody : ∃ body, e.layout spread =
      inlineObject [member "matches" body, member "replace" (quoted e.replace)] ∧
      Held (IsArray ConditionEntry.WrittenAs) e.conditions body := by
    refine ⟨_, rfl, ?_⟩
    cases spread with
    | true =>
      exact held_array "\n        ".toList "\n        ".toList "\n      ".toList
        (by decide) (by decide) (by decide) hentries
    | false =>
      exact held_array [] [' '] [] (by decide) (by decide) (by decide) hentries
  obtain ⟨body, hlayout, conditions, hconditions, hspelled⟩ := hbody
  have hmembers := MembersSpelled.cons "matches".toList hspelled
    (.cons "replace".toList (Token.SpelledBy.text e.replace) .nil)
  obtain ⟨v, hgives, hspelled⟩ := exists_spelled_inlineObject hmembers
  exact ⟨v, ⟨conditions, hgives, hconditions⟩, hlayout ▸ hspelled⟩

/-- Every rule is laid out as itself, whether the rules before it are spread or not. -/
theorem held_layoutRules (spread : Bool) (es : List RuleEntry) :
    List.Forall₂ (Held RuleEntry.WrittenAs) es (layoutRules spread es) := by
  induction es generalizing spread with
  | nil => exact .nil
  | cons e es ih => exact .cons (e.held_layout _) (ih _)

theorem PatternEntry.held_layout (e : PatternEntry) :
    Held PatternEntry.WrittenAs e e.layout := by
  have hrules : ∀ rules, Held (IsArray RuleEntry.WrittenAs) rules _ := fun rules =>
    held_array "\n      ".toList "\n      ".toList "\n    ".toList
      (by decide) (by decide) (by decide) (held_layoutRules false rules)
  obtain ⟨rules, hrules, hrulesMember⟩ := MembersSpelled.optional hrules "rules".toList e.rules?
  have hmembers := MembersSpelled.cons "find".toList (Token.SpelledBy.text e.find)
    (.cons "replace".toList (Token.SpelledBy.text e.replace) (hrulesMember .nil))
  rw [List.append_nil] at hmembers
  obtain ⟨v, hgives, hspelled⟩ := exists_spelled_inlineObject hmembers
  exact ⟨v, ⟨rules, hgives, hrules⟩, hspelled⟩

/-! ## Documents -/

/-- The layout of a document is a text of a value that holds it. -/
theorem Document.exists_written_layout (d : Document) :
    ∃ v, d.WrittenAs v ∧ v.Written d.layout := by
  have hentries : List.Forall₂ (Held PatternEntry.WrittenAs) d.patterns
      (d.patterns.map PatternEntry.layout) := by
    rw [List.forall₂_map_right_iff, List.forall₂_same]
    exact fun e _ => e.held_layout
  obtain ⟨patterns, hpatterns, hspelled⟩ := held_array "\n    ".toList "\n    ".toList
    "\n  ".toList (by decide) (by decide) (by decide) hentries
  have hmembers := MembersSpelled.cons "vowel".toList (Token.SpelledBy.text d.vowel)
    (.cons "consonant".toList (Token.SpelledBy.text d.consonant)
      (.cons "casesensitive".toList (Token.SpelledBy.text d.caseSensitive)
        (.cons "patterns".toList hspelled .nil)))
  obtain ⟨v, hgives, hspelled⟩ := hmembers.exists_spelled "\n  ".toList "\n  ".toList ['\n']
    (by decide) (by decide) (by decide)
  refine ⟨v, ⟨patterns, hgives, hpatterns⟩, ?_⟩
  -- the line end behind the last bracket is white space behind the value
  have hfeed : IsSpace ['\n'] := by decide
  have hwritten := hspelled.written hfeed
  rw [List.append_assoc] at hwritten
  exact hwritten

/-- **A document is read in its layout.** -/
theorem ofBytes?_layout (d : Document) :
    Document.ofBytes? (Text.Utf8.encode d.layout) = some d := by
  obtain ⟨v, hheld, hwritten⟩ := d.exists_written_layout
  rw [Document.ofBytes?, ofBytes?_of_written hwritten]
  exact recovers_document _ _ hheld

/-- The layout of a document is a rendering of every grammar that the document describes. -/
theorem isRendering_layout (h : List.Forall₂ PatternEntry.Means d.patterns ps) :
    IsRendering d.vowel d.consonant d.caseSensitive ps (Text.Utf8.encode d.layout) := by
  obtain ⟨v, hheld, hwritten⟩ := d.exists_written_layout
  exact .intro h hheld hwritten

/-- **A document that is laid out describes the same grammar**, or has the same fault. -/
theorem decode_layout (d : Document) : decode (Text.Utf8.encode d.layout) = d.toGrammar := by
  rw [decode, ofBytes?_layout]

/-- The embedded grammar is the one that is read in the file of the phonetic document. -/
theorem decode_phonetic : decode (Text.Utf8.encode phonetic.layout) = embedded :=
  decode_layout phonetic

end Translit.Grammar
