import Translit.Tool.Options

/-!
# Command lines

* `Command`: what the tool is asked to do;
* `Invocation`: a command with the options that any command may have;
* `Invocation.ofArguments?`: the invocation that the arguments spell, if they spell one;
* `Invocation.fileNames`, `Invocation.readsInput`: what it will read.
-/

namespace Translit.Tool

/-- A command with its operands and options. -/
inductive Command
  | convert (text? mode? grammar? : Option String)
  | explain (text : String) (grammar? : Option String) (json : Bool)
  | lookup (sequence : String) (grammar? : Option String)
  | accuracy (corpus : String) (grammar? category? : Option String) (verbose : Bool)
  | grammarExport
  | grammarValidate (file : String)
  | settingsExport
  | settingsValidate (file : String)
  deriving DecidableEq, Repr

/-- A command and the options that all commands share. -/
structure Invocation where
  command : Command
  settings? : Option String := none
  trace : Bool := false
  traceDir? : Option String := none
  deriving DecidableEq, Repr

/-- The options that all commands share. -/
def sharedSpec : Spec where
  valued := ["settings", "trace-dir"]
  flags := ["trace"]
  operands := 0

/-- The options of a command besides the shared ones, and its operands. -/
def commandSpec? : String → Option Spec
  | "convert" =>
    some { valued := ["mode", "grammar"], letters := [('m', "mode")], flags := [], operands := 1 }
  | "explain" => some { valued := ["grammar"], flags := ["json"], operands := 1 }
  | "lookup" => some { valued := ["grammar"], flags := [], operands := 1 }
  | "accuracy" =>
    some { valued := ["grammar", "category"], flags := ["verbose"], operands := 1 }
  | "grammar-export" => some { valued := [], flags := [], operands := 0 }
  | "grammar-validate" => some { valued := [], flags := [], operands := 1 }
  | "settings-export" => some { valued := [], flags := [], operands := 0 }
  | "settings-validate" => some { valued := [], flags := [], operands := 1 }
  | _ => none

/-- The specification with the shared options added. -/
def Spec.withShared (s : Spec) : Spec :=
  { s with valued := s.valued ++ sharedSpec.valued, flags := s.flags ++ sharedSpec.flags }

/-- The command of a name with its options and operands. -/
def Command.ofOptions? (name : String) (o : Options) : Option Command :=
  match name, o.operands with
  | "convert", [] => some (.convert none (o.value? "mode") (o.value? "grammar"))
  | "convert", [text] => some (.convert (some text) (o.value? "mode") (o.value? "grammar"))
  | "explain", [text] => some (.explain text (o.value? "grammar") (o.flag "json"))
  | "lookup", [sequence] => some (.lookup sequence (o.value? "grammar"))
  | "accuracy", [corpus] =>
    some (.accuracy corpus (o.value? "grammar") (o.value? "category") (o.flag "verbose"))
  | "grammar-export", [] => some .grammarExport
  | "grammar-validate", [file] => some (.grammarValidate file)
  | "settings-export", [] => some .settingsExport
  | "settings-validate", [file] => some (.settingsValidate file)
  | _, _ => none

namespace Invocation

/-- The invocation that the arguments spell. A shared option counts as given behind the command
where it is given on both sides. -/
def ofArguments? (arguments : List String) : Option Invocation := do
  let (shared, words) ← sharedSpec.read? arguments
  match words with
  | [] => none
  | name :: words =>
    let spec ← commandSpec? name
    let (o, rest) ← spec.withShared.read? words
    if rest.isEmpty then
      let command ← Command.ofOptions? name o
      let value? (option : String) := o.value? option <|> shared.value? option
      some {
        command
        settings? := value? "settings"
        trace := o.flag "trace" || shared.flag "trace"
        traceDir? := value? "trace-dir" }
    else none

/-- The files that the invocation may read. -/
def fileNames (i : Invocation) : List String :=
  i.settings?.toList ++
    match i.command with
    | .convert _ _ grammar? => grammar?.toList
    | .explain _ grammar? _ => grammar?.toList
    | .lookup _ grammar? => grammar?.toList
    | .accuracy corpus grammar? _ _ => corpus :: grammar?.toList
    | .grammarValidate file => [file]
    | .settingsValidate file => [file]
    | .grammarExport | .settingsExport => []

/-- The invocation reads its standard input. -/
def readsInput (i : Invocation) : Bool :=
  match i.command with
  | .convert none _ _ => true
  | _ => false

end Invocation

end Translit.Tool
