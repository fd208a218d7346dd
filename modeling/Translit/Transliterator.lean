import Translit.Grammar.Source
import Translit.Mode
import Translit.Resolution
import Translit.Scan
import Translit.Unicode.Lowercase

/-!
# Transliteration

* `Transliterator`, `Transliterator.ofGrammar`, `Transliterator.ofSource`: a grammar with the trie
  of its patterns and a policy;
* `Grammar.normalize`: the text with small letters where case does not matter;
* `Transliterator.convert`: the text with each match replaced;
* `Transliterator.explain`, `Segment`, `surface`: the same conversion, match by match;
* `Transliterator.transliterate`, `Transliterator.transliterateNamed`: conversion in a mode.
-/

namespace Translit

/-- A grammar, the trie of what its patterns find, and a policy. -/
structure Transliterator where
  grammar : Grammar
  trie : Trie
  policy : Policy

/-- Why there is no conversion. -/
inductive Transliterator.Error
  | invalidMode (name : List Char)
  | notImplemented (mode : Mode)
  | grammar (cause : Grammar.Error)
  | alreadyInitialized
  deriving DecidableEq, Repr

/-- The wording of an error. -/
def Transliterator.Error.message : Transliterator.Error → String
  | invalidMode name => "invalid mode: " ++ Text.Quoted.quote name
  | notImplemented mode => mode.name ++ " mode is not implemented"
  | grammar cause => "grammar load error: " ++ cause.message
  | alreadyInitialized => "transliterator already initialized"

/-- The text in small letters, except for the letters whose case the grammar tells apart. -/
def Grammar.normalize (g : Grammar) (cs : List Char) : List Char :=
  cs.flatMap fun c => if g.isCaseSensitive c then [c] else Unicode.lowercase c

/-- A step of a conversion: the characters from `start` to `stop` of the normalized text, what they
became, and the pattern and the rule that made it so. -/
structure Segment where
  start : Nat
  stop : Nat
  source : List Char
  output : List Char
  pattern? : Option (List Char) := none
  rule? : Option Nat := none
  deriving DecidableEq, Repr

/-- The outputs of the steps, joined. -/
def surface (segments : List Segment) : List Char := segments.flatMap (·.output)

namespace Transliterator

/-- The transliterator of a grammar. -/
def ofGrammar (grammar : Grammar) (policy : Policy) : Transliterator where
  grammar
  trie := Trie.build (grammar.patterns.map (·.find))
  policy

/-- The transliterator of a source's grammar, where `files` are the files there are. -/
def ofSource (files : Text.Files) (source : Grammar.Source) (policy : Policy) :
    Except Error Transliterator :=
  match source.load files with
  | .ok grammar => .ok (ofGrammar grammar policy)
  | .error cause => .error (.grammar cause)

/-- The tokens of a normalized text in their places. -/
def tokens (t : Transliterator) (cs : List Char) : List Placed :=
  Placed.ofTokens cs (t.trie.scan cs)

/-- The replacement of the pattern with index `i` in its surroundings. -/
def resolve? (t : Transliterator) (i : Nat) (around : Surroundings) :
    Option (Pattern × Resolution) :=
  t.grammar.patterns[i]?.map fun p => (p, p.resolve t.grammar t.policy around)

/-- What a token becomes. -/
def output (t : Transliterator) (p : Placed) : List Char :=
  match p.token with
  | .literal _ c => [c]
  | .word i _ _ =>
    match t.resolve? i p.around with
    | some (_, r) => r.text
    | none => p.source

/-- The text converted. Characters that begin no match stay. -/
def convert (t : Transliterator) (text : List Char) : List Char :=
  (t.tokens (t.grammar.normalize text)).flatMap t.output

/-- The step that a token stands for. -/
def segment (t : Transliterator) (p : Placed) : Segment :=
  match p.token with
  | .literal pos c => { start := pos, stop := pos + 1, source := [c], output := [c] }
  | .word i start stop =>
    match t.resolve? i p.around with
    | some (pattern, r) =>
      { start, stop, source := p.source, output := r.text, pattern? := some pattern.find,
        rule? := r.rule? }
    | none => { start, stop, source := p.source, output := p.source }

/-- The steps of the conversion of a text. -/
def explain (t : Transliterator) (text : List Char) : List Segment :=
  (t.tokens (t.grammar.normalize text)).map t.segment

/-- The text converted in a mode. -/
def transliterate (t : Transliterator) (text : List Char) : Mode → Except Error (List Char)
  | .forward => .ok (t.convert text)
  | mode => .error (.notImplemented mode)

/-- The mode of a name. -/
def modeOf (name : List Char) : Except Error Mode :=
  match Mode.ofName? name with
  | some mode => .ok mode
  | none => .error (.invalidMode name)

/-- The text converted in the mode of a name. -/
def transliterateNamed (t : Transliterator) (text name : List Char) : Except Error (List Char) :=
  modeOf name >>= t.transliterate text

end Transliterator

end Translit
