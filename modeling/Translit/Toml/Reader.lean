/-!
# Readers

A reader takes something off the front of a text, or fails. Where one reader fails another may be
tried at the same place.

* `Reader`: with the operations of a monad and of an alternative;
* `char`, `satisfying`, `spelled`, `takeWhile`, `atEnd`: readers of characters;
* `many`, `separated`: repetition.
-/

namespace Translit.Toml

/-- What a text begins with, and the rest of the text. -/
abbrev Reader := StateT (List Char) Option

namespace Reader

/-- A character that has a property. -/
def satisfying (p : Char → Bool) : Reader Char
  | c :: cs => if p c then some (c, cs) else none
  | [] => none

/-- A given character. -/
def char (c : Char) : Reader Char := satisfying (· == c)

/-- A given sequence of characters. -/
def spelled (word : String) : Reader Unit := word.toList.forM fun c => discard (char c)

/-- The characters up to the first that lacks a property. -/
def takeWhile (p : Char → Bool) : Reader (List Char) := fun cs =>
  some (cs.takeWhile p, cs.dropWhile p)

/-- At least one character with a property, and all that follow it. -/
def takeWhile1 (p : Char → Bool) : Reader (List Char) :=
  (· :: ·) <$> satisfying p <*> takeWhile p

/-- The end of the text. -/
def atEnd : Reader Unit
  | [] => some ((), [])
  | _ :: _ => none

/-- Something repeated at most `limit` times. -/
def atMost {α : Type} (r : Reader α) : Nat → Reader (List α)
  | 0 => pure []
  | limit + 1 => (do
      let a ← r
      let rest ← atMost r limit
      return a :: rest) <|> pure []

/-- Something repeated until it fails; each time it takes at least one character. -/
def many {α : Type} (r : Reader α) : Reader (List α) := fun cs => atMost r cs.length cs

/-- One or more of something, with a separator between them. -/
def separated {α : Type} (r : Reader α) (separator : Char) : Reader (List α) := do
  let first ← r
  let rest ← many (char separator *> r)
  return first :: rest

/-- The value that a text as a whole holds. -/
def all? {α : Type} (r : Reader α) (cs : List Char) : Option α := (·.1) <$> (r <* atEnd).run cs

end Reader

end Translit.Toml
