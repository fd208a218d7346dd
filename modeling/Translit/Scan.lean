import Translit.Surroundings
import Translit.Trie

/-!
# Scanning

A text is cut from left to right: at each place the longest word of the trie, or the single
character if no word begins there.

* `Token`, `Token.start`, `Token.stop`;
* `Trie.scanFrom`, `Trie.scan`: the tokens of a text;
* `Placed`, `Placed.ofTokens`: tokens together with the text they stand for and the text around.
-/

namespace Translit

/-- A piece of a text: a character that begins no word, or a word with the place where it stands. -/
inductive Token
  | literal (pos : Nat) (c : Char)
  | word (index start stop : Nat)
  deriving DecidableEq, Repr

namespace Token

/-- The place of the first character. -/
def start : Token → Nat
  | literal pos _ => pos
  | word _ start _ => start

/-- The place behind the last character. -/
def stop : Token → Nat
  | literal pos _ => pos + 1
  | word _ _ stop => stop

end Token

/-- The tokens of a text whose first character has the place `pos`. The first `skip` characters
belong to the token before them. -/
def Trie.scanFrom (t : Trie) : (pos skip : Nat) → List Char → List Token
  | _, _, [] => []
  | pos, skip + 1, _ :: cs => t.scanFrom (pos + 1) skip cs
  | pos, 0, c :: cs =>
    match t.longest (c :: cs) with
    | some m => .word m.word pos (pos + m.length) :: t.scanFrom (pos + 1) (m.length - 1) cs
    | none => .literal pos c :: t.scanFrom (pos + 1) 0 cs

/-- The tokens of a text. -/
def Trie.scan (t : Trie) (cs : List Char) : List Token := t.scanFrom 0 0 cs

/-- A token, the text it stands for, and the text around. -/
structure Placed where
  token : Token
  source : List Char
  around : Surroundings
  deriving DecidableEq, Repr

/-- The tokens of `rest`, in their places; `before` is the text in front of them, last character
first. -/
def Placed.ofTokensFrom (before rest : List Char) : List Token → List Placed
  | [] => []
  | t :: ts =>
    let source := rest.take (t.stop - t.start)
    let after := rest.drop (t.stop - t.start)
    ⟨t, source, ⟨some before, some after⟩⟩ :: ofTokensFrom (source.reverse ++ before) after ts

/-- The tokens of a text in their places. -/
def Placed.ofTokens (cs : List Char) (ts : List Token) : List Placed := ofTokensFrom [] cs ts

end Translit
