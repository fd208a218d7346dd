/-!
# Options

The words of a command line are options, each given once, and operands.

* `Spec`: the options that are known and how many operands there may be;
* `Word`, `Word.ofString`: what a word of the command line looks like;
* `Options`, `Spec.read?`: the options and operands in a list of words, or `none` if the words do
  not fit.
-/

namespace Translit.Tool

/-- The known options: those with a value, some of them also under a letter, and those without. The
words are read to their end or, where no operand is expected, up to the first operand. -/
structure Spec where
  valued : List String
  letters : List (Char × String) := []
  flags : List String
  operands : Nat
  deriving Repr

/-- A word: two dashes, an option with the value attached to it, or anything else. -/
inductive Word
  | dashes
  | long (name : String) (value? : Option String)
  | short (letter : Char) (value? : Option String)
  | operand
  deriving DecidableEq, Repr

/-- The value attached to a letter, with or without an equals sign between them. -/
def attached? : List Char → Option String
  | [] => none
  | '=' :: cs => some (String.ofList cs)
  | cs => some (String.ofList cs)

/-- What a word looks like. A single dash is an operand. -/
def Word.ofString (word : String) : Word :=
  match word.toList with
  | ['-', '-'] => .dashes
  | '-' :: '-' :: cs =>
    let name := String.ofList (cs.takeWhile (· != '='))
    match cs.dropWhile (· != '=') with
    | _ :: value => .long name (some (String.ofList value))
    | [] => .long name none
  | '-' :: letter :: cs => .short letter (attached? cs)
  | _ => .operand

/-- Options and operands as they were given. -/
structure Options where
  values : List (String × String) := []
  flags : List String := []
  operands : List String := []
  deriving DecidableEq, Repr

namespace Options

/-- The value of an option. -/
def value? (o : Options) (name : String) : Option String := o.values.lookup name

/-- An option without a value is there. -/
def flag (o : Options) (name : String) : Bool := o.flags.contains name

/-- One more option with its value. -/
def addValue? (o : Options) (name value : String) : Option Options :=
  if (o.value? name).isSome then none else some { o with values := o.values ++ [(name, value)] }

/-- One more option without a value. -/
def addFlag? (o : Options) (name : String) : Option Options :=
  if o.flag name then none else some { o with flags := o.flags ++ [name] }

/-- More operands. -/
def addOperands (o : Options) (words : List String) : Options :=
  { o with operands := o.operands ++ words }

end Options

namespace Spec

/-- The name of the option with a value that a word begins, and the value attached to it. -/
def valued? (s : Spec) : Word → Option (String × Option String)
  | .long name value? => if s.valued.contains name then some (name, value?) else none
  | .short letter value? => (s.letters.lookup letter).map (·, value?)
  | _ => none

/-- The name of the option without a value that a word is. -/
def flag? (s : Spec) : Word → Option String
  | .long name none => if s.flags.contains name then some name else none
  | _ => none

/-- The word may be the value of the option before it. -/
def isValue (word : String) : Bool := Word.ofString word == .operand

/-- The options and operands in a list of words, added to those in `o`, and the words that are left
over. The value of the option `pending?` comes first. -/
def readFrom? (s : Spec) (o : Options) (pending? : Option String) :
    List String → Option (Options × List String)
  | [] => if pending?.isSome then none else some (o, [])
  | word :: words =>
    match pending? with
    | some name =>
      if isValue word then do s.readFrom? (← o.addValue? name word) none words else none
    | none =>
      match Word.ofString word with
      | .operand =>
        if s.operands = 0 then some (o, word :: words)
        else s.readFrom? (o.addOperands [word]) none words
      | .dashes => some (o.addOperands words, [])
      | option =>
        match s.valued? option, s.flag? option with
        | some (name, some value), _ => do s.readFrom? (← o.addValue? name value) none words
        | some (name, none), _ => s.readFrom? o (some name) words
        | none, some name => do s.readFrom? (← o.addFlag? name) none words
        | none, none => none

/-- The options and operands in a list of words, and the words from the first operand on where none
is expected. -/
def read? (s : Spec) (words : List String) : Option (Options × List String) := do
  let (o, rest) ← s.readFrom? {} none words
  if o.operands.length ≤ s.operands then some (o, rest) else none

end Spec

end Translit.Tool
