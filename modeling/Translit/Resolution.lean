import Translit.Grammar.Basic
import Translit.Surroundings

/-!
# Choosing a replacement

The first rule of a pattern whose conditions all hold gives the replacement; without one the
pattern's own replacement stands. The ends of a text count as punctuation, and never as a vowel or
a consonant.

* `Policy`: how a comparison with text beyond an end is judged;
* `Surroundings.neighbour?`, `Surroundings.compare?`: what conditions look at;
* `Condition.holds`, `Rule.holds`;
* `Pattern.resolve`: the replacement and the rule it comes from.
-/

namespace Translit

/-- How a comparison is judged that would need text beyond an end of the whole: as false, so that
its negation holds, or as failed either way. -/
inductive Policy
  | negatable
  | strict
  deriving DecidableEq, Repr

namespace Policy

/-- The policy where none is set. -/
def default : Policy := negatable

/-- The verdict on a comparison that runs over an end. -/
def beyondEnd : Policy → Bool → Bool
  | negatable, negated => negated
  | strict, _ => false

/-- The policy in a report. -/
def title : Policy → String
  | negatable => "Negatable"
  | strict => "Strict"

end Policy

namespace Surroundings

/-- The text on one side. -/
def on? (s : Surroundings) : Side → Option (List Char)
  | .before => s.before?
  | .after => s.after?

/-- The character next to the span. -/
def neighbour? (s : Surroundings) (side : Side) : Option Char := (s.on? side).bind List.head?

end Surroundings

/-- A text as it is met from a match beside it. -/
def Side.facing : Side → List Char → List Char
  | .before, cs => cs.reverse
  | .after, cs => cs

/-- The text beside the match is the value; `none` if there is less text than that. -/
def Surroundings.compare? (s : Surroundings) (side : Side) (value : List Char) : Option Bool :=
  match s.on? side with
  | some cs =>
    if value.length ≤ cs.length then some (cs.take value.length == side.facing value) else none
  | none => none

/-- The condition holds beside a match. -/
def Condition.holds (g : Grammar) (policy : Policy) (s : Surroundings) (c : Condition) : Bool :=
  match c.scope? with
  | none => true
  | some .vowel => (s.neighbour? c.side).any g.isVowel != c.negated
  | some .consonant => (s.neighbour? c.side).any g.isConsonant != c.negated
  | some .punctuation => (s.neighbour? c.side).all g.isPunctuation != c.negated
  | some (.exact value) =>
    match s.compare? c.side value with
    | some equal => equal != c.negated
    | none => policy.beyondEnd c.negated

/-- All conditions of the rule hold. -/
def Rule.holds (g : Grammar) (policy : Policy) (s : Surroundings) (r : Rule) : Bool :=
  r.conditions.all (·.holds g policy s)

/-- A replacement, and the index of the rule it comes from. -/
structure Resolution where
  text : List Char
  rule? : Option Nat := none
  deriving DecidableEq, Repr

/-- The replacement of a match. -/
def Pattern.resolve (g : Grammar) (policy : Policy) (p : Pattern) (s : Surroundings) :
    Resolution :=
  match p.rules? with
  | none => ⟨p.replace, none⟩
  | some rules =>
    match rules.zipIdx.find? fun r => r.1.holds g policy s with
    | some (r, i) => ⟨r.replace, some i⟩
    | none => ⟨p.replace, none⟩

/-- A pattern without rules has its own replacement, as one whose rules do not hold. -/
theorem Pattern.resolve_eq (g : Grammar) (policy : Policy) (p : Pattern) (s : Surroundings) :
    p.resolve g policy s =
      match p.rules.zipIdx.find? fun r => r.1.holds g policy s with
      | some (r, i) => ⟨r.replace, some i⟩
      | none => ⟨p.replace, none⟩ := by
  unfold resolve rules
  cases p.rules? <;> rfl

end Translit
